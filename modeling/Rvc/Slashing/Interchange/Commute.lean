import Rvc.Slashing.Protection
import Rvc.Slashing.Shadow

/-!
# Imports commute

What an import leaves is fixed, up to verdicts, by which records it took in: the watermarks are maxima over
the records, every imported row lies under them, and the occupied targets and slots are the union. So two
runs of imports over the same records, in any order and with any repetition, shadow each other
(`Tables.Absorbs.shadowed`) and give the same verdicts, although the rows that won a conflict may differ.
-/

namespace Rvc.Slashing

open Rvc.Lib Rvc.EthTypes Rvc.Observability List Tables

/-! ### What the watermarks are raised to -/

def ParsedValidator.raises (validator : ParsedValidator) (key : String × WatermarkKind) : List Int :=
  if validator.pubkey = key.1 then (validator.maxOf key.2).toList.map asI64 else []

theorem mem_raises {parsed : List ParsedValidator} {pubkey : String} {kind : WatermarkKind} {value : Int} :
    value ∈ parsed.flatMap (·.raises (pubkey, kind)) ↔ ∃ n, RaisedTo parsed pubkey kind n ∧ value = asI64 n := by
  rw [mem_flatMap]
  constructor
  · rintro ⟨validator, hvalidator, hvalue⟩
    unfold ParsedValidator.raises at hvalue
    split at hvalue
    · next hpk =>
      obtain ⟨n, hn, rfl⟩ := mem_map.mp hvalue
      exact ⟨n, ⟨validator, hvalidator, hpk, Option.mem_toList.mp hn⟩, rfl⟩
    · cases hvalue
  · rintro ⟨n, ⟨validator, hvalidator, hpk, hn⟩, rfl⟩
    refine ⟨validator, hvalidator, ?_⟩
    rw [ParsedValidator.raises, if_pos hpk]
    exact mem_map_of_mem (Option.mem_toList.mpr hn)

theorem import_lookup {file : InterchangeFormat} {parsed : List ParsedValidator}
    (hparse : parseInterchange file = .ok parsed) (gvrHex : String) (t : Tables) (key : String × WatermarkKind) :
    (applyAll (importStatements gvrHex parsed) t).watermarks.lookup key =
      ((t.watermarks.lookup key).toList ++ parsed.flatMap (·.raises key)).max? := by
  have hupper : ∀ value ∈ (t.watermarks.lookup key).toList ++ parsed.flatMap (·.raises key), ∃ wm,
      (applyAll (importStatements gvrHex parsed) t).watermarks.lookup key = some wm ∧ value ≤ wm := by
    intro value hvalue
    rcases mem_append.mp hvalue with hold | hnew
    · exact (applyAll_importStatements_extends gvrHex parsed t).watermarks _ value (Option.mem_toList.mp hold)
    · obtain ⟨n, hn, rfl⟩ := mem_raises.mp hnew
      exact import_raised hparse hn gvrHex t
  cases hfinal : (applyAll (importStatements gvrHex parsed) t).watermarks.lookup key with
  | none =>
    refine (max?_eq_none_iff.mpr (eq_nil_iff_forall_not_mem.mpr fun value hvalue => ?_)).symm
    obtain ⟨wm, hwm, -⟩ := hupper value hvalue
    cases hfinal.symm.trans hwm
  | some wm =>
    refine (max?_eq_some_iff.mpr ⟨mem_append.mpr ?_, fun value hvalue => ?_⟩).symm
    · exact (import_lookup_cases gvrHex parsed t hfinal).imp Option.mem_toList.mpr mem_raises.mpr
    · obtain ⟨wm', hwm', hle⟩ := hupper value hvalue
      cases hfinal.symm.trans hwm'
      exact hle

/-! ### Absorbing records -/

/-- `t'` is `t` after an import of the records, up to which rows won a conflict. -/
structure Tables.Absorbs (t : Tables) (parsed : List ParsedValidator) (t' : Tables) : Prop where
  extension : t.Extends t'
  rows : ImportedRows parsed t t'
  watermarks : ∀ key, t'.watermarks.lookup key =
    ((t.watermarks.lookup key).toList ++ parsed.flatMap (·.raises key)).max?
  targets : ∀ validator ∈ parsed, ∀ a ∈ validator.attestations, ∃ row ∈ t'.attestations,
    row.key = (validator.pubkey, asI64 a.targetEpoch)
  slots : ∀ validator ∈ parsed, ∀ b ∈ validator.blocks, ∃ row ∈ t'.blocks, row.key = (validator.pubkey, asI64 b.slot)
  covered : ∀ validator ∈ parsed, ∀ a ∈ validator.attestations,
    (t'.floor validator.pubkey).Covers ⟨asI64 a.sourceEpoch, asI64 a.targetEpoch⟩
  blocksCovered : ∀ validator ∈ parsed, ∀ b ∈ validator.blocks, t'.BlockCovered validator.pubkey (asI64 b.slot)

theorem insertParsedAttestation_occupied (gvrHex pubkey : String) (attestation : ParsedAttestation)
    (t : Tables) : ∃ row ∈ (insertParsedAttestation gvrHex pubkey attestation t).attestations,
      row.key = (pubkey, asI64 attestation.targetEpoch) := by
  unfold insertParsedAttestation
  split
  · next htaken =>
    obtain ⟨row, hrow, hkey⟩ := any_eq_true.mp htaken
    obtain ⟨hpk, htarget⟩ := of_decide_eq_true hkey
    exact ⟨row, hrow, by rw [AttestationRow.key, hpk, htarget]⟩
  · exact ⟨_, mem_append_right _ (mem_singleton.mpr rfl), rfl⟩

theorem insertParsedBlock_occupied (gvrHex pubkey : String) (block : ParsedBlock) (t : Tables) :
    ∃ row ∈ (insertParsedBlock gvrHex pubkey block t).blocks, row.key = (pubkey, asI64 block.slot) := by
  unfold insertParsedBlock
  split
  · next htaken =>
    obtain ⟨row, hrow, hkey⟩ := any_eq_true.mp htaken
    obtain ⟨hpk, hslot⟩ := of_decide_eq_true hkey
    exact ⟨row, hrow, by rw [BlockRow.key, hpk, hslot]⟩
  · exact ⟨_, mem_append_right _ (mem_singleton.mpr rfl), rfl⟩

theorem applyAll_importStatements_absorbs {file : InterchangeFormat} (hfile : file.Small)
    {parsed : List ParsedValidator} (hparse : parseInterchange file = .ok parsed) (gvrHex : String)
    (t : Tables) : t.Absorbs parsed (applyAll (importStatements gvrHex parsed) t) := by
  refine ⟨applyAll_importStatements_extends gvrHex parsed t, importedRows gvrHex parsed t,
    import_lookup hparse gvrHex t, ?_, ?_, ?_, ?_⟩
  · intro validator hvalidator a ha
    refine applyAll_establishes (P := fun t : Tables => ∃ row ∈ t.attestations,
      row.key = (validator.pubkey, asI64 a.targetEpoch)) ?_
      (mem_flatMap.mpr ⟨validator, hvalidator, mem_append_left _ (mem_map_of_mem ha)⟩)
      (insertParsedAttestation_occupied gvrHex validator.pubkey a) t
    rintro statement hstatement t ⟨row, hrow, hkey⟩
    exact ⟨row, (importStatements_extends hstatement t).attestations.subset hrow, hkey⟩
  · intro validator hvalidator b hb
    refine applyAll_establishes (P := fun t : Tables => ∃ row ∈ t.blocks, row.key = (validator.pubkey, asI64 b.slot)) ?_
      (mem_flatMap.mpr ⟨validator, hvalidator, mem_append_right _ (mem_append_left _ (mem_map_of_mem hb))⟩)
      (insertParsedBlock_occupied gvrHex validator.pubkey b) t
    rintro statement hstatement t ⟨row, hrow, hkey⟩
    exact ⟨row, (importStatements_extends hstatement t).blocks.subset hrow, hkey⟩
  · intro validator hvalidator a ha
    exact import_covers hfile hparse hvalidator ha gvrHex t
  · intro validator hvalidator b hb
    exact import_coversBlock hfile hparse hvalidator hb gvrHex t

namespace Tables.Absorbs

variable {t t' t'' : Tables} {p q : List ParsedValidator}

theorem trans (h : t.Absorbs p t') (h' : t'.Absorbs q t'') : t.Absorbs (p ++ q) t'' := by
  refine ⟨h.extension.trans h'.extension, ⟨fun row hrow => ?_, fun row hrow => ?_⟩, fun key => ?_, ?_, ?_, ?_, ?_⟩
  · rcases h'.rows.blocks row hrow with hrow | ⟨validator, hvalidator, hrest⟩
    · exact (h.rows.blocks row hrow).imp_right fun ⟨validator, hvalidator, hrest⟩ =>
        ⟨validator, mem_append_left _ hvalidator, hrest⟩
    · exact .inr ⟨validator, mem_append_right _ hvalidator, hrest⟩
  · rcases h'.rows.attestations row hrow with hrow | ⟨validator, hvalidator, hrest⟩
    · exact (h.rows.attestations row hrow).imp_right fun ⟨validator, hvalidator, hrest⟩ =>
        ⟨validator, mem_append_left _ hvalidator, hrest⟩
    · exact .inr ⟨validator, mem_append_right _ hvalidator, hrest⟩
  · rw [h'.watermarks, h.watermarks, max?_toList_append, flatMap_append, append_assoc]
  · refine forall_mem_append.mpr ⟨fun validator hv a ha => ?_, h'.targets⟩
    obtain ⟨row, hrow, hkey⟩ := h.targets validator hv a ha
    exact ⟨row, h'.extension.attestations.subset hrow, hkey⟩
  · refine forall_mem_append.mpr ⟨fun validator hv b hb => ?_, h'.slots⟩
    obtain ⟨row, hrow, hkey⟩ := h.slots validator hv b hb
    exact ⟨row, h'.extension.blocks.subset hrow, hkey⟩
  · refine forall_mem_append.mpr ⟨fun validator hv a ha => ?_, h'.covered⟩
    exact (h.covered validator hv a ha).mono (h'.extension.advances.floor_raised _)
  · refine forall_mem_append.mpr ⟨fun validator hv b hb => ?_, h'.blocksCovered⟩
    exact h'.extension.advances.blockCovered (h.blocksCovered validator hv b hb)

section

variable (h : t.Absorbs p t') (h' : t.Absorbs q t'') (hpq : ∀ v, v ∈ p ↔ v ∈ q)

include h h' hpq

theorem watermarks_eq (key : String × WatermarkKind) : t'.watermarks.lookup key = t''.watermarks.lookup key := by
  rw [h.watermarks, h'.watermarks]
  apply max?_eq_of_mem_iff
  intro value
  simp only [mem_append, mem_flatMap, hpq]

theorem filter_above : t'.attestations.filter t''.above = t.attestations.filter t''.above := by
  refine h.extension.attestations.filter_eq fun row hrow hnew => ?_
  obtain ⟨validator, hvalidator, a, ha, hpk, hsource, htarget⟩ := (h.rows.attestations row hrow).resolve_left hnew
  have hcov := h'.covered validator ((hpq validator).mp hvalidator) a ha
  rw [← hpk, ← hsource, ← htarget] at hcov
  have hvote : (t''.floor row.pubkey).Covers row.vote := hcov
  simp [above, hvote]

theorem filter_aboveBlock : t'.blocks.filter t''.aboveBlock = t.blocks.filter t''.aboveBlock := by
  refine h.extension.blocks.filter_eq fun row hrow hnew => ?_
  obtain ⟨validator, hvalidator, b, hb, hpk, hslot⟩ := (h.rows.blocks row hrow).resolve_left hnew
  have hcov := h'.blocksCovered validator ((hpq validator).mp hvalidator) b hb
  rw [← hpk, ← hslot] at hcov
  simp [aboveBlock, hcov]

/-- **Convergence.** Absorbing the same records, in whatever order and however often, leaves databases that
shadow each other. -/
theorem shadowed : t'.Shadowed t'' := by
  refine ⟨fun key wm hwm => ⟨wm, h.watermarks_eq h' hpq key ▸ hwm, le_rfl⟩, ?_, ?_, ?_, ?_⟩
  · rw [h.filter_above h' hpq, h'.filter_above h' fun _ => Iff.rfl]
  · intro row hrow
    rcases h'.rows.attestations row hrow with hrow | ⟨validator, hvalidator, a, ha, hpk, -, htarget⟩
    · exact ⟨row, h.extension.attestations.subset hrow, rfl, rfl⟩
    · obtain ⟨other, hother, hkey⟩ := h.targets validator ((hpq validator).mpr hvalidator) a ha
      obtain ⟨hopk, hotarget⟩ := Prod.mk.inj hkey
      exact ⟨other, hother, hopk.trans hpk.symm, hotarget.trans htarget.symm⟩
  · rw [h.filter_aboveBlock h' hpq, h'.filter_aboveBlock h' fun _ => Iff.rfl]
  · intro row hrow
    rcases h'.rows.blocks row hrow with hrow | ⟨validator, hvalidator, b, hb, hpk, hslot⟩
    · exact ⟨row, h.extension.blocks.subset hrow, rfl, rfl⟩
    · obtain ⟨other, hother, hkey⟩ := h.slots validator ((hpq validator).mpr hvalidator) b hb
      obtain ⟨hopk, hoslot⟩ := Prod.mk.inj hkey
      exact ⟨other, hother, hopk.trans hpk.symm, hoslot.trans hslot.symm⟩

end

end Tables.Absorbs

/-! ### Two files -/

def InterchangeFormat.Importable (file : InterchangeFormat) (gvr : Root) : Prop :=
  validateInterchangeMetadata file gvr = .ok () ∧ ∃ parsed, parseInterchange file = .ok parsed

/-- The two databases stage the same attestations below `2 ^ 63` and the same blocks, with the same
result. -/
structure Tables.SameVerdicts (t t' : Tables) : Prop where
  attestations : ∀ db pubkeyHex source target signingRootHex gvr staged, source < 2 ^ 63 → target < 2 ^ 63 →
    (stageAttestation db t pubkeyHex source target signingRootHex gvr = .ok staged ↔
      stageAttestation db t' pubkeyHex source target signingRootHex gvr = .ok staged)
  blocks : ∀ db pubkeyHex slot signingRootHex gvr staged, slot < 2 ^ 64 →
    (stageBlock db t pubkeyHex slot signingRootHex gvr = .ok staged ↔
      stageBlock db t' pubkeyHex slot signingRootHex gvr = .ok staged)

section

variable {t t' : Tables} {db : SlashingDb} {pubkeyHex : String} {signingRootHex : Option String} {gvr : Root}

section

variable (h : t.Shadowed t') (hsmall : t.Small) (hsmall' : t'.Small) (hgvr : t'.metadataGvr = t.metadataGvr)

include h hsmall hsmall' hgvr

theorem Tables.Shadowed.stageAttestation {source target : Nat} (hsource : source < 2 ^ 63)
    (htarget : target < 2 ^ 63) {staged : StagedAttestation}
    (hok : stageAttestation db t' pubkeyHex source target signingRootHex gvr = .ok staged) :
    stageAttestation db t pubkeyHex source target signingRootHex gvr = .ok staged := by
  unfold Slashing.stageAttestation at hok ⊢
  rw [checkGvrBeforeLock_congr hgvr] at hok
  simp only [bind_eq_ok] at hok ⊢
  obtain ⟨u, hcheck, verdict, hverdict, hstaged⟩ := hok
  exact ⟨u, hcheck, verdict, h.checkAttestation hsmall hsmall' ⟨hsource, htarget⟩ hverdict, hstaged⟩

theorem Tables.Shadowed.stageBlock {slot : Nat} (hslot : slot < 2 ^ 64) {staged : StagedBlock}
    (hok : stageBlock db t' pubkeyHex slot signingRootHex gvr = .ok staged) :
    stageBlock db t pubkeyHex slot signingRootHex gvr = .ok staged := by
  unfold Slashing.stageBlock at hok ⊢
  rw [checkGvrBeforeLock_congr hgvr] at hok
  simp only [bind_eq_ok] at hok ⊢
  obtain ⟨u, hcheck, verdict, hverdict, hstaged⟩ := hok
  exact ⟨u, hcheck, verdict, h.checkBlock hsmall hsmall' hslot hverdict, hstaged⟩

end

end

theorem Tables.Absorbs.sameVerdicts {t t' t'' : Tables} {p q : List ParsedValidator} (h : t.Absorbs p t')
    (h' : t.Absorbs q t'') (hpq : ∀ v, v ∈ p ↔ v ∈ q) (hsmall' : t'.Small) (hsmall'' : t''.Small) :
    t'.SameVerdicts t'' := by
  have hshadow := h.shadowed h' hpq
  have hshadow' := h'.shadowed h fun v => (hpq v).symm
  have hgvr : t''.metadataGvr = t'.metadataGvr :=
    h'.extension.metadataGvr.trans h.extension.metadataGvr.symm
  constructor
  · intro db pubkeyHex source target signingRootHex gvr staged hsource htarget
    exact ⟨hshadow'.stageAttestation hsmall'' hsmall' hgvr.symm hsource htarget,
      hshadow.stageAttestation hsmall' hsmall'' hgvr hsource htarget⟩
  · intro db pubkeyHex slot signingRootHex gvr staged hslot
    exact ⟨hshadow'.stageBlock hsmall'' hsmall' hgvr.symm hslot, hshadow.stageBlock hsmall' hsmall'' hgvr hslot⟩

theorem InterchangeFormat.Importable.absorbs {file : InterchangeFormat} {gvr : Root}
    (himp : file.Importable gvr) (hfile : file.Small) :
    ∃ parsed, ∀ t : Tables, t.Small → ∃ t', importInterchange .none ⟨t, none⟩ file gvr =
      (.ok (), ⟨t', none⟩) ∧ t.Absorbs parsed t' ∧ t'.Small := by
  obtain ⟨hmeta, parsed, hparse⟩ := himp
  refine ⟨parsed, fun t hsmall => ⟨_, importInterchange_ok hmeta hparse, ?_, ?_⟩⟩
  · exact applyAll_importStatements_absorbs hfile hparse (rootToHex gvr) t
  · exact hsmall.applyAll_importStatements hfile hparse (rootToHex gvr)

/-- **Imports commute, and repeating one changes nothing.** Two importable files can be imported in either
order into any database; both orders leave the same watermarks and the same verdicts, and importing the
first file again keeps its verdicts. -/
theorem import_commutes {t : Tables} (hsmall : t.Small) {f₁ f₂ : InterchangeFormat} {gvr₁ gvr₂ : Root}
    (h₁ : f₁.Importable gvr₁) (h₂ : f₂.Importable gvr₂) (hf₁ : f₁.Small) (hf₂ : f₂.Small) : ∃ t₁ t₂ t₁₂ t₂₁ t₁₁,
      importInterchange .none ⟨t, none⟩ f₁ gvr₁ = (.ok (), ⟨t₁, none⟩) ∧
      importInterchange .none ⟨t₁, none⟩ f₂ gvr₂ = (.ok (), ⟨t₁₂, none⟩) ∧
      importInterchange .none ⟨t, none⟩ f₂ gvr₂ = (.ok (), ⟨t₂, none⟩) ∧
      importInterchange .none ⟨t₂, none⟩ f₁ gvr₁ = (.ok (), ⟨t₂₁, none⟩) ∧
      importInterchange .none ⟨t₁, none⟩ f₁ gvr₁ = (.ok (), ⟨t₁₁, none⟩) ∧
      (∀ key, t₁₂.watermarks.lookup key = t₂₁.watermarks.lookup key) ∧
      t₁₂.SameVerdicts t₂₁ ∧ t₁₁.SameVerdicts t₁ := by
  obtain ⟨p₁, himport₁⟩ := h₁.absorbs hf₁
  obtain ⟨p₂, himport₂⟩ := h₂.absorbs hf₂
  obtain ⟨t₁, hrun₁, habs₁, hs₁⟩ := himport₁ t hsmall
  obtain ⟨t₂, hrun₂, habs₂, hs₂⟩ := himport₂ t hsmall
  obtain ⟨t₁₂, hrun₁₂, habs₁₂, hs₁₂⟩ := himport₂ t₁ hs₁
  obtain ⟨t₂₁, hrun₂₁, habs₂₁, hs₂₁⟩ := himport₁ t₂ hs₂
  obtain ⟨t₁₁, hrun₁₁, habs₁₁, hs₁₁⟩ := himport₁ t₁ hs₁
  have hswap : ∀ v, v ∈ p₁ ++ p₂ ↔ v ∈ p₂ ++ p₁ := fun v => by
    rw [mem_append, mem_append, Or.comm]
  have htwice : ∀ v, v ∈ p₁ ++ p₁ ↔ v ∈ p₁ := fun v => by rw [mem_append, or_self]
  have hboth := habs₁.trans habs₁₂
  have hboth' := habs₂.trans habs₂₁
  refine ⟨t₁, t₂, t₁₂, t₂₁, t₁₁, hrun₁, hrun₁₂, hrun₂, hrun₂₁, hrun₁₁, ?_, ?_, ?_⟩
  · exact hboth.watermarks_eq hboth' hswap
  · exact hboth.sameVerdicts hboth' hswap hs₁₂ hs₂₁
  · exact (habs₁.trans habs₁₁).sameVerdicts habs₁ htwice hs₁₁ hs₁

def voteFile (source root : String) : InterchangeFormat :=
  ⟨⟨"5", rootToHex zeroRoot⟩, [⟨"0xAA", [], [⟨source, "5", some root⟩]⟩]⟩

theorem voteFile_small {source root : String} {n : Nat} (hn : n < 2 ^ 63)
    (hparse : parseInterchange (voteFile source root) =
      .ok [⟨"0xaa", [⟨n, 5, some root⟩], [], some n, some 5, none⟩]) : (voteFile source root).Small := by
  intro parsed hok validator hvalidator
  cases hparse.symm.trans hok
  obtain rfl := mem_singleton.mp hvalidator
  exact ⟨by simpa using hn, by simp⟩

/-- The two votes conflict, so each order keeps its own first row; the floors and the verdicts agree. -/
theorem import_commutes_conflict : ∃ t₁₂ t₂₁ : Tables, t₁₂.attestations ≠ t₂₁.attestations ∧
      t₁₂.watermarks.lookup ("0xaa", .attestationSource) = some 3 ∧
      t₂₁.watermarks.lookup ("0xaa", .attestationSource) = some 3 ∧ t₁₂.SameVerdicts t₂₁ := by
  have hparse₁ : parseInterchange (voteFile "3" "x") =
      .ok [⟨"0xaa", [⟨3, 5, some "x"⟩], [], some 3, some 5, none⟩] := by decide +kernel
  have hparse₂ : parseInterchange (voteFile "2" "y") =
      .ok [⟨"0xaa", [⟨2, 5, some "y"⟩], [], some 2, some 5, none⟩] := by decide +kernel
  have hmeta (source root : String) : validateInterchangeMetadata (voteFile source root) zeroRoot = .ok () :=
    validateInterchangeMetadata_rootToHex _ zeroRoot
  have hcan₁ : (voteFile "3" "x").Importable zeroRoot := ⟨hmeta .., _, hparse₁⟩
  have hcan₂ : (voteFile "2" "y").Importable zeroRoot := ⟨hmeta .., _, hparse₂⟩
  obtain ⟨t₁, t₂, t₁₂, t₂₁, t₁₁, h₁, h₁₂, h₂, h₂₁, -, hwm, hsame, -⟩ :=
    import_commutes small_empty hcan₁ hcan₂ (voteFile_small (by decide) hparse₁) (voteFile_small (by decide) hparse₂)
  have hrun {t t' : Tables} {source root : String} {parsed : List ParsedValidator}
      (hparse : parseInterchange (voteFile source root) = .ok parsed)
      (h : importInterchange .none ⟨t, none⟩ (voteFile source root) zeroRoot = (.ok (), ⟨t', none⟩)) :
      t' = applyAll (importStatements (rootToHex zeroRoot) parsed) t := by
    rw [importInterchange_ok (hmeta ..) hparse] at h
    exact congrArg (·.2.committed) h.symm
  obtain rfl := hrun hparse₁ h₁
  obtain rfl := hrun hparse₂ h₂
  obtain rfl := hrun hparse₂ h₁₂
  obtain rfl := hrun hparse₁ h₂₁
  exact ⟨_, _, by decide +kernel, by decide +kernel, by decide +kernel, hsame⟩

end Rvc.Slashing
