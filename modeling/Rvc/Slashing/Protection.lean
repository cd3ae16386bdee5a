import Rvc.Slashing.Interchange.Import
import Rvc.Slashing.Reconcile

/-!
# What the tables protect

A message is protected by its row, or by floors at or above it once the row is gone. No operation on the
tables takes protection away except the compensating delete, and that only from the one identity it names
(`Tables.Protects.without`). A reserve that is accepted conflicts with nothing that is protected, except
with what has its own root (`SpecAccepted.of_conflicts`).

`Tables.Sound` is what these facts need of the tables: small values, one row per key, and that every row no
floor covers comes from a known message. Imported rows are under the floors of their own import.
-/

namespace Rvc.Slashing

open Rvc.Lib Rvc.EthTypes List Tables Int BlockRow AttestationRow ReserveSpec

/-! ### Messages and conflicts -/

def ReservationKind.Small : ReservationKind → Prop
  | .block slot => slot < 2 ^ 63
  | .attestation source target => source < 2 ^ 63 ∧ target < 2 ^ 63

/-- Two blocks for one slot, or two votes one of which is a double or surround vote to the other. -/
def ReservationKind.Conflicts : ReservationKind → ReservationKind → Prop
  | .block slot, .block slot' => slot = slot'
  | .attestation source target, .attestation source' target' =>
      Vote.Conflicts ⟨source, target⟩ ⟨source', target'⟩
  | _, _ => False

instance (kind : ReservationKind) : Decidable kind.Small := by
  unfold ReservationKind.Small
  split <;> infer_instance

instance (kind kind' : ReservationKind) : Decidable (kind.Conflicts kind') := by
  unfold ReservationKind.Conflicts
  split <;> infer_instance

theorem ReservationKind.Conflicts.refl (kind : ReservationKind) : kind.Conflicts kind := by
  cases kind with
  | block slot => exact rfl
  | attestation source target => exact .inl rfl

theorem ReservationKind.Conflicts.symm {kind kind' : ReservationKind} (h : kind.Conflicts kind') :
    kind'.Conflicts kind := by
  cases kind <;> cases kind' <;> first | exact h.elim | exact Eq.symm h | exact Vote.Conflicts.symm h

theorem conflicts_asI64 {source target source' target' : Nat} (hs : source < 2 ^ 63) (ht : target < 2 ^ 63)
    (hs' : source' < 2 ^ 63) (ht' : target' < 2 ^ 63) (h : Vote.Conflicts ⟨source, target⟩ ⟨source', target'⟩) :
    Vote.Conflicts (ε := Int) ⟨asI64 source, asI64 target⟩ ⟨asI64 source', asI64 target'⟩ := by
  rw [asI64_of_lt hs, asI64_of_lt ht, asI64_of_lt hs', asI64_of_lt ht']
  rcases h with h | ⟨h₁, h₂⟩ | ⟨h₁, h₂⟩
  · exact .inl (congrArg Nat.cast h)
  · exact .inr (.inl ⟨ofNat_lt.mpr h₁, ofNat_lt.mpr h₂⟩)
  · exact .inr (.inr ⟨ofNat_lt.mpr h₁, ofNat_lt.mpr h₂⟩)

/-! ### Protection -/

section

variable (t : Tables) (id : RowIdentity)

def Tables.Records : Prop :=
  (∃ row ∈ t.blocks, row.Is id) ∨ ∃ row ∈ t.attestations, row.Is id

/-- The floors are at or above the message: the block floor, or both attestation floors. -/
def Tables.Covers : Prop :=
  match id.kind with
  | .block slot => t.BlockCovered id.pubkey (asI64 slot)
  | .attestation source target => (t.floor id.pubkey).Covers ⟨asI64 source, asI64 target⟩

def Tables.Protects : Prop := t.Records id ∨ t.Covers id

end

variable {row : AttestationRow}

section

variable {t t' : Tables} {id id' : RowIdentity}

theorem Tables.records_block {slot : Nat} (hkind : id.kind = .block slot) :
    t.Records id ↔ ∃ row ∈ t.blocks, row.pubkey = id.pubkey ∧ row.slot = asI64 slot ∧
      row.signingRoot = id.signingRoot := by
  simp [Tables.Records, BlockRow.Is, AttestationRow.Is, hkind]

theorem Tables.records_attestation {source target : Nat} (hkind : id.kind = .attestation source target) :
    t.Records id ↔ ∃ row ∈ t.attestations, row.pubkey = id.pubkey ∧ row.sourceEpoch = asI64 source ∧
      row.targetEpoch = asI64 target ∧ row.signingRoot = id.signingRoot := by
  simp [Tables.Records, BlockRow.Is, AttestationRow.Is, hkind]

theorem Tables.covers_of_block {row : BlockRow} (hrow : row.Is id)
    (h : t.BlockCovered row.pubkey row.slot) : t.Covers id := by
  obtain ⟨slot, hkind, hpk, hslot, -⟩ := is_iff.mp hrow
  rw [hpk, hslot] at h
  rw [Tables.Covers, hkind]
  exact h

theorem Tables.covers_of_attestation (hrow : row.Is id) (h : (t.floor row.pubkey).Covers row.vote) : t.Covers id := by
  obtain ⟨source, target, hkind, hpk, hsource, htarget, -⟩ := is_iff.mp hrow
  rw [vote, hsource, htarget, hpk] at h
  rw [Tables.Covers, hkind]
  exact h

theorem Tables.Covers.advance (h : t.Covers id) (hadv : t.Advances t') : t'.Covers id := by
  unfold Tables.Covers at h ⊢
  cases hkind : id.kind with
  | block slot =>
    rw [hkind] at h
    exact hadv.blockCovered h
  | attestation source target =>
    rw [hkind] at h
    exact Floor.Covers.mono (hadv.floor_raised _) h

theorem Tables.Protects.advance (h : t.Protects id) (hadv : t.Advances t') : t'.Protects id := by
  rcases h with (⟨row, hrow, his⟩ | ⟨row, hrow, his⟩) | hcov
  · exact (hadv.blocks row hrow).imp (fun hkeep => .inl ⟨row, hkeep, his⟩) (covers_of_block his)
  · exact (hadv.attestations row hrow).imp (fun hkeep => .inr ⟨row, hkeep, his⟩) (covers_of_attestation his)
  · exact .inr (hcov.advance hadv)

theorem BlockRow.is_unique {row : BlockRow} (h : row.Is id) (h' : row.Is id') (hsmall : id.kind.Small)
    (hsmall' : id'.kind.Small) : id = id' := by
  obtain ⟨slot, hkind, hpk, hslot, hroot⟩ := is_iff.mp h
  obtain ⟨slot', hkind', hpk', hslot', hroot'⟩ := is_iff.mp h'
  rw [hkind] at hsmall
  rw [hkind'] at hsmall'
  have hcast : asI64 slot = asI64 slot' := hslot.symm.trans hslot'
  rw [asI64_of_lt hsmall, asI64_of_lt hsmall'] at hcast
  refine RowIdentity.ext (hpk.symm.trans hpk') ?_ (hroot.symm.trans hroot')
  rw [hkind, hkind', ofNat.inj hcast]

theorem AttestationRow.is_unique (h : row.Is id) (h' : row.Is id')
    (hsmall : id.kind.Small) (hsmall' : id'.kind.Small) : id = id' := by
  obtain ⟨source, target, hkind, hpk, hsource, htarget, hroot⟩ := is_iff.mp h
  obtain ⟨source', target', hkind', hpk', hsource', htarget', hroot'⟩ := is_iff.mp h'
  rw [hkind] at hsmall
  rw [hkind'] at hsmall'
  have hs : asI64 source = asI64 source' := hsource.symm.trans hsource'
  have ht : asI64 target = asI64 target' := htarget.symm.trans htarget'
  rw [asI64_of_lt hsmall.1, asI64_of_lt hsmall'.1] at hs
  rw [asI64_of_lt hsmall.2, asI64_of_lt hsmall'.2] at ht
  refine RowIdentity.ext (hpk.symm.trans hpk') ?_ (hroot.symm.trans hroot')
  rw [hkind, hkind', ofNat.inj hs, ofNat.inj ht]

theorem Tables.Records.without (h : t.Records id') (hne : id ≠ id') (hsmall : id.kind.Small)
    (hsmall' : id'.kind.Small) : (t.without id).Records id' := by
  rcases h with ⟨row, hrow, his⟩ | ⟨row, hrow, his⟩
  · refine .inl ⟨row, mem_filter.mpr ⟨hrow, ?_⟩, his⟩
    simpa using fun h => hne (is_unique h his hsmall hsmall')
  · refine .inr ⟨row, mem_filter.mpr ⟨hrow, ?_⟩, his⟩
    simpa using fun h => hne (is_unique h his hsmall hsmall')

theorem Tables.Records.extends (h : t.Records id) (hext : t.Extends t') : t'.Records id := by
  rcases h with ⟨row, hrow, his⟩ | ⟨row, hrow, his⟩
  · exact .inl ⟨row, hext.blocks.subset hrow, his⟩
  · exact .inr ⟨row, hext.attestations.subset hrow, his⟩

theorem Tables.Protects.without (h : t.Protects id') (hne : id ≠ id') (hsmall : id.kind.Small)
    (hsmall' : id'.kind.Small) : (t.without id).Protects id' :=
  h.imp_left fun hrec => hrec.without hne hsmall hsmall'

end

/-! ### Sound tables -/

/-- Small values, one row per key, and every row is covered or that of a known message. -/
structure Tables.Sound (known : RowIdentity → Prop) (t : Tables) : Prop where
  small : t.Small
  blockKeys : KeyedBy BlockRow.key t.blocks
  attestationKeys : KeyedBy AttestationRow.key t.attestations
  blocks : ∀ row ∈ t.blocks, t.BlockCovered row.pubkey row.slot ∨ ∃ id, known id ∧ row.Is id
  attestations : ∀ row ∈ t.attestations, (t.floor row.pubkey).Covers row.vote ∨ ∃ id, known id ∧ row.Is id

namespace Tables.Sound

variable {known : RowIdentity → Prop} {t t' : Tables}

theorem empty (gvr : Option String) : Sound known { Tables.empty with metadataGvr := gvr } :=
  ⟨⟨nofun, nofun, small_empty.watermarks⟩, nofun, nofun, nofun, nofun⟩

section

variable (h : t.Sound known)

include h

theorem advance (hadv : t.Advances t') (hsmall : t'.Small)
    (hblockKeys : KeyedBy BlockRow.key t'.blocks) (hattestationKeys : KeyedBy AttestationRow.key t'.attestations)
    (hblocks : ∀ row ∈ t'.blocks, row ∈ t.blocks ∨ t'.BlockCovered row.pubkey row.slot)
    (hattestations : ∀ row ∈ t'.attestations,
      row ∈ t.attestations ∨ (t'.floor row.pubkey).Covers row.vote) : t'.Sound known where
  small := hsmall
  blockKeys := hblockKeys
  attestationKeys := hattestationKeys
  blocks row hrow := by
    rcases hblocks row hrow with hold | hcov
    · exact (h.blocks row hold).imp hadv.blockCovered id
    · exact .inl hcov
  attestations row hrow := by
    rcases hattestations row hrow with hold | hcov
    · exact (h.attestations row hold).imp (Floor.Covers.mono (hadv.floor_raised _)) id
    · exact .inl hcov

theorem shrink (hadv : t.Advances t') (hsmall : t'.Small)
    (hblocks : t'.blocks ⊆ t.blocks) (hattestations : t'.attestations ⊆ t.attestations) : t'.Sound known :=
  h.advance hadv hsmall (h.blockKeys.mono hblocks) (h.attestationKeys.mono hattestations)
    (fun _ hrow => .inl (hblocks hrow)) fun _ hrow => .inl (hattestations hrow)

theorem raise (hraised : t.Raised t') (hsmall : t'.Small) : t'.Sound known :=
  h.shrink hraised.advances hsmall (fun _ hrow => hraised.blocks ▸ hrow)
    fun _ hrow => hraised.attestations ▸ hrow

theorem prune {stats : PruneStats}
    (hprune : pruneBelowWatermarks t = .ok (t', stats)) : t.Advances t' ∧ t'.Sound known := by
  obtain ⟨hadv, hsmall, hatt, hblk⟩ := prune_spec h.small hprune
  exact ⟨hadv, h.shrink hadv hsmall hblk hatt⟩

theorem setBlockWatermark {pubkey : String} {slot : Nat} (hslot : slot < 2 ^ 63)
    (hset : Slashing.setBlockWatermark t pubkey slot = .ok t') : t.Advances t' ∧ t'.Sound known := by
  obtain ⟨hraised, hsmall, -⟩ := raiseWatermark_spec h.small hslot hset
  exact ⟨hraised.advances, h.raise hraised hsmall⟩

theorem setAttestationWatermark {pubkey : String} {source target : Nat}
    (hsource : source < 2 ^ 63) (htarget : target < 2 ^ 63)
    (hset : Slashing.setAttestationWatermark t pubkey source target = .ok t') :
    t.Advances t' ∧ t'.Sound known := by
  obtain ⟨raised, hfirst, hsecond⟩ := bind_eq_ok.mp hset
  obtain ⟨hraised, hsmall, -⟩ := raiseWatermark_spec h.small hsource hfirst
  obtain ⟨hraised', hsmall', -⟩ := raiseWatermark_spec hsmall htarget hsecond
  have htwice := hraised.trans hraised'
  exact ⟨htwice.advances, h.raise htwice hsmall'⟩

theorem without (id : RowIdentity) : (t.without id).Sound known where
  small := ⟨fun row hrow => h.small.attestations row (mem_of_mem_filter hrow),
    fun row hrow => h.small.blocks row (mem_of_mem_filter hrow), h.small.watermarks⟩
  blockKeys := h.blockKeys.mono (filter_subset_self _)
  attestationKeys := h.attestationKeys.mono (filter_subset_self _)
  blocks row hrow := h.blocks row (mem_of_mem_filter hrow)
  attestations row hrow := h.attestations row (mem_of_mem_filter hrow)

end

end Tables.Sound

/-! ### Imported rows -/

/-- Every row after the statements of an import is an old one or a parsed one. -/
structure ImportedRows (parsed : List ParsedValidator) (t t' : Tables) : Prop where
  blocks : ∀ row ∈ t'.blocks, row ∈ t.blocks ∨ ∃ validator ∈ parsed, ∃ block ∈ validator.blocks,
    row.pubkey = validator.pubkey ∧ row.slot = asI64 block.slot
  attestations : ∀ row ∈ t'.attestations, row ∈ t.attestations ∨ ∃ validator ∈ parsed,
    ∃ attestation ∈ validator.attestations, row.pubkey = validator.pubkey ∧
      row.sourceEpoch = asI64 attestation.sourceEpoch ∧ row.targetEpoch = asI64 attestation.targetEpoch

theorem importedRows (gvrHex : String) (parsed : List ParsedValidator) (t : Tables) :
    ImportedRows parsed t (applyAll (importStatements gvrHex parsed) t) := by
  refine import_invariant (P := ImportedRows parsed t) (fun t' t'' hstep ht' => ?_)
    ⟨fun _ hrow => .inl hrow, fun _ hrow => .inl hrow⟩
  cases hstep with
  | kept => exact ht'
  | attestation hvalidator ha hrow =>
    refine ⟨ht'.blocks, forall_mem_append.mpr ⟨ht'.attestations, forall_mem_singleton.mpr (.inr ?_)⟩⟩
    exact hrow ▸ ⟨_, hvalidator, _, ha, rfl, rfl, rfl⟩
  | block hvalidator hb hrow =>
    refine ⟨forall_mem_append.mpr ⟨ht'.blocks, forall_mem_singleton.mpr (.inr ?_)⟩, ht'.attestations⟩
    exact hrow ▸ ⟨_, hvalidator, _, hb, rfl, rfl⟩
  | @raised validator kind value =>
    have hraised := raiseWatermarkMax_raised t' validator.pubkey kind value
    exact ⟨hraised.blocks ▸ ht'.blocks, hraised.attestations ▸ ht'.attestations⟩

theorem Tables.Sound.importInterchange {known : RowIdentity → Prop} {t : Tables} (h : t.Sound known)
    {file : InterchangeFormat} (hfile : file.Small) (faults : ImportFaults) (gvr : Root) :
    t.Advances (importInterchange faults ⟨t, none⟩ file gvr).2.committed ∧
      (importInterchange faults ⟨t, none⟩ file gvr).2.committed.Sound known := by
  rcases importInterchange_cases faults (c := ⟨t, none⟩) rfl file gvr with ⟨e, heq⟩ | ⟨parsed, hparse, heq⟩
  · rw [heq]
    exact ⟨(Tables.Raised.refl t).advances, h⟩
  · rw [heq]
    have hext := applyAll_importStatements_extends (rootToHex gvr) parsed t
    have hrows := importedRows (rootToHex gvr) parsed t
    refine ⟨hext.advances, h.advance hext.advances
      (h.small.applyAll_importStatements hfile hparse (rootToHex gvr)) (hext.blocks.keyedBy h.blockKeys)
      (hext.attestations.keyedBy h.attestationKeys) (fun row hrow => ?_) fun row hrow => ?_⟩
    · refine (hrows.blocks row hrow).imp_right ?_
      rintro ⟨validator, hvalidator, block, hb, hpk, hslot⟩
      rw [hpk, hslot]
      exact import_coversBlock hfile hparse hvalidator hb (rootToHex gvr) t
    · refine (hrows.attestations row hrow).imp_right ?_
      rintro ⟨validator, hvalidator, attestation, ha, hpk, hsource, htarget⟩
      rw [hpk, vote, hsource, htarget]
      exact import_covers hfile hparse hvalidator ha (rootToHex gvr) t

/-! ### Accepted reserves -/

section

variable {db : SlashingDb} {known : RowIdentity → Prop} {t : Tables} {spec : ReserveSpec}
  {reservation : CommittedReservation} {id : RowIdentity}

section

variable (h : SpecAccepted db t spec reservation) (hsound : t.Sound known) (hsmall : spec.kind.Small)
  (hsmall' : id.kind.Small) (hpubkey : id.pubkey = spec.pubkey) (hconf : spec.kind.Conflicts id.kind)

include h hsound hsmall hsmall' hpubkey hconf

/-- An accepted message is above the floors, so none of them covers a message it conflicts with. -/
theorem SpecAccepted.not_covers : ¬ t.Covers id := by
  intro hcov
  unfold Tables.Covers at hcov
  cases h with
  | @block slot verdict hkind hacc =>
    rw [hkind] at hconf hsmall
    cases hkind' : id.kind with
    | attestation => simp [hkind', ReservationKind.Conflicts] at hconf
    | block slot' =>
      rw [hkind'] at hconf hcov
      obtain rfl : slot = slot' := hconf
      obtain ⟨wm, hwm, hle⟩ := hcov
      rw [hpubkey] at hwm
      have hle' : slot ≤ asU64 wm := le_asU64 hsmall (hsound.small.watermarks _ _ hwm) hle
      exact BlockRefusal.not_accepted (.belowWatermark hwm hle') hacc
  | @attestation source target verdict hkind hacc =>
    rw [hkind] at hconf hsmall
    cases hkind' : id.kind with
    | block => simp [hkind', ReservationKind.Conflicts] at hconf
    | attestation source' target' =>
      rw [hkind'] at hconf hcov hsmall'
      rw [hpubkey] at hcov
      have hcandidate : AttestationCandidate.Small ⟨source, target, spec.signingRootHex⟩ := hsmall
      have hadmits := (hsound.small.admits_iff hcandidate).mp hacc.floor
      exact hcov.not_conflicts hadmits (conflicts_asI64 hsmall.1 hsmall.2 hsmall'.1 hsmall'.2 hconf).symm

/-- An accepted message meets a row it conflicts with only where it repeats that row's root, and then
inserts nothing. -/
theorem SpecAccepted.of_records (hrec : t.Records id) :
    reservation.inserted = false ∧ id.signingRoot = spec.signingRootHex := by
  cases h with
  | @block slot verdict hkind hacc =>
    rw [hkind] at hconf
    cases hkind' : id.kind with
    | attestation => simp [hkind', ReservationKind.Conflicts] at hconf
    | block slot' =>
      rw [hkind'] at hconf
      obtain rfl : slot = slot' := hconf
      obtain ⟨row, hrow, hpk, hslot, hroot⟩ := (records_block hkind').mp hrec
      cases verdict with
      | stage => exact absurd hslot (hacc.slot row hrow (hpk.trans hpubkey))
      | resign =>
        obtain ⟨stored, hstored, hres⟩ := hacc.slot
        obtain ⟨hmem, hspk, hsslot⟩ := rowAtSlot_some hstored
        obtain rfl : row = stored := hsound.blockKeys row hrow stored hmem
          (Prod.ext (hpk.trans (hpubkey.trans hspk.symm)) (hslot.trans hsslot.symm))
        exact ⟨rfl, hroot.symm.trans (eq_of_isResign hres)⟩
  | @attestation source target verdict hkind hacc =>
    rw [hkind] at hconf hsmall
    cases hkind' : id.kind with
    | block => simp [hkind', ReservationKind.Conflicts] at hconf
    | attestation source' target' =>
      rw [hkind'] at hconf hsmall'
      obtain ⟨row, hrow, hpk, hsource, htarget, hroot⟩ := (records_attestation hkind').mp hrec
      have hvote : row.vote = ⟨asI64 source', asI64 target'⟩ := by
        rw [vote, hsource, htarget]
      -- the surround rules hold for a repeat too, so only a shared target is left
      rcases conflicts_asI64 hsmall.1 hsmall.2 hsmall'.1 hsmall'.2 hconf with heq | hsurr | hsurr
      · have htarget' : row.targetEpoch = asI64 target := htarget.trans heq.symm
        cases verdict with
        | stage => exact absurd htarget' (hacc.target row hrow (hpk.trans hpubkey))
        | duplicate =>
          obtain ⟨stored, hstored, hres⟩ := hacc.target
          obtain ⟨hmem, hspk, hstarget⟩ := rowAtTarget_some hstored
          obtain rfl : row = stored := hsound.attestationKeys row hrow stored hmem
            (Prod.ext (hpk.trans (hpubkey.trans hspk.symm)) (htarget'.trans hstarget.symm))
          exact ⟨rfl, hroot.symm.trans (eq_of_isResign hres)⟩
      · exact absurd (hvote ▸ hsurr) (hacc.notSurrounding row hrow (hpk.trans hpubkey))
      · exact absurd (hvote ▸ hsurr) (hacc.notSurrounded row hrow (hpk.trans hpubkey))

/-- **What an accepted reserve says about the protected messages**: it conflicts with none, but with one
of its own root, whose row it repeats. -/
theorem SpecAccepted.of_conflicts (hprot : t.Protects id) :
    reservation.inserted = false ∧ id.signingRoot = spec.signingRootHex :=
  hprot.elim (h.of_records hsound hsmall hsmall' hpubkey hconf) fun hcov =>
    absurd hcov (h.not_covers hsound hsmall hsmall' hpubkey hconf)

end

def Tables.afterReserve (t : Tables) (spec : ReserveSpec) (reservation : CommittedReservation) : Tables :=
  if reservation.inserted then t.withReserved spec else t

theorem SpecAccepted.extends (h : SpecAccepted db t spec reservation) :
    t.Extends (t.afterReserve spec reservation) := by
  unfold afterReserve
  cases h with
  | @block slot verdict hkind hacc =>
    cases verdict with
    | resign => exact .refl t
    | stage =>
      simp only [reservation, withReserved, hkind]
      refine ⟨.refl _ _, .single fun row hrow heq => ?_, rfl, fun _ wm h => ⟨wm, h, le_rfl⟩⟩
      obtain ⟨hpk, hslot⟩ := Prod.mk.inj heq
      exact hacc.slot row hrow hpk.symm hslot.symm
  | @attestation source target verdict hkind hacc =>
    cases verdict with
    | duplicate => exact .refl t
    | stage =>
      simp only [reservation, withReserved, hkind]
      refine ⟨.single fun row hrow heq => ?_, .refl _ _, rfl, fun _ wm h => ⟨wm, h, le_rfl⟩⟩
      obtain ⟨hpk, htarget⟩ := Prod.mk.inj heq
      exact hacc.target row hrow hpk.symm htarget.symm

theorem BlockRow.Is.small {row : BlockRow} (h : row.Is id) (hsmall : id.kind.Small) : row.Small := by
  obtain ⟨slot, hkind, -, hslot, -⟩ := is_iff.mp h
  rw [hkind] at hsmall
  rw [BlockRow.Small, hslot]
  exact smallInt_asI64 hsmall

theorem AttestationRow.Is.small (h : row.Is id) (hsmall : id.kind.Small) : row.Small := by
  obtain ⟨source, target, hkind, -, hsource, htarget, -⟩ := is_iff.mp h
  rw [hkind] at hsmall
  rw [AttestationRow.Small, hsource, htarget]
  exact ⟨smallInt_asI64 hsmall.1, smallInt_asI64 hsmall.2⟩

theorem Tables.afterReserve_watermarks : (t.afterReserve spec reservation).watermarks = t.watermarks := by
  unfold afterReserve withReserved
  split
  · split <;> rfl
  · rfl

theorem Tables.afterReserve_metadataGvr : (t.afterReserve spec reservation).metadataGvr = t.metadataGvr := by
  unfold afterReserve withReserved
  split
  · split <;> rfl
  · rfl

theorem Tables.withReserved_ne (t : Tables) (spec : ReserveSpec) : t.withReserved spec ≠ t := by
  intro h
  have hlength := congrArg (fun t : Tables => t.blocks.length + t.attestations.length) h
  unfold withReserved at hlength
  cases hkind : spec.kind <;> simp [hkind] at hlength

/-- A message that repeats a row, and another for the same slot or target that is accepted too, have one root
text: that of the row. -/
theorem SpecAccepted.rootText_eq (h : SpecAccepted db t spec reservation) (hrepeat : reservation.inserted = false)
    {other : ReserveSpec} {reservation' : CommittedReservation} (h' : SpecAccepted db t other reservation')
    (hpubkey : other.pubkey = spec.pubkey) (hkind : other.kind = spec.kind) :
    other.signingRootHex = spec.signingRootHex := by
  cases h with
  | @block slot verdict hslot hacc =>
    have hresign : verdict = .resign := by simpa [reservation] using hrepeat
    subst hresign
    obtain ⟨row, hrow, hroot⟩ := hacc.slot
    cases h' with
    | attestation hother => simp [hother, hslot] at hkind
    | @block slot' verdict hother hacc' =>
      obtain rfl : slot' = slot := by simpa [hother, hslot] using hkind
      rw [hpubkey] at hacc'
      exact (eq_of_isResign (hacc'.at_slot hrow).2).symm.trans (eq_of_isResign hroot)
  | @attestation source target verdict hvote hacc =>
    have hduplicate : verdict = .duplicate := by simpa [reservation] using hrepeat
    subst hduplicate
    obtain ⟨row, hrow, hroot⟩ := hacc.target
    cases h' with
    | block hother => simp [hother, hvote] at hkind
    | @attestation source' target' verdict hother hacc' =>
      obtain ⟨rfl, rfl⟩ : source' = source ∧ target' = target := by simpa [hother, hvote] using hkind
      rw [hpubkey] at hacc'
      exact (eq_of_isResign (hacc'.at_target hrow).2).symm.trans (eq_of_isResign hroot)

theorem Tables.mem_afterReserve :
    (∀ row ∈ (t.afterReserve spec reservation).blocks, row ∈ t.blocks ∨ row.Is spec.identity) ∧
      ∀ row ∈ (t.afterReserve spec reservation).attestations, row ∈ t.attestations ∨ row.Is spec.identity := by
  unfold afterReserve withReserved
  split
  · cases hkind : spec.kind with
    | block slot =>
      refine ⟨fun row hrow => ?_, fun _ hrow => .inl hrow⟩
      refine (mem_append.mp hrow).imp_right fun hnew => ?_
      obtain rfl := mem_singleton.mp hnew
      simp [BlockRow.Is, identity, blockRow, hkind]
    | attestation source target =>
      refine ⟨fun _ hrow => .inl hrow, fun row hrow => ?_⟩
      refine (mem_append.mp hrow).imp_right fun hnew => ?_
      obtain rfl := mem_singleton.mp hnew
      simp [AttestationRow.Is, identity, attestationRow, hkind]
  · exact ⟨fun _ hrow => .inl hrow, fun _ hrow => .inl hrow⟩

theorem Tables.Sound.reserve (hsound : t.Sound known) (h : SpecAccepted db t spec reservation)
    (hsmall : spec.kind.Small) (hknown : known spec.identity) : (t.afterReserve spec reservation).Sound known where
  small := by
    refine ⟨fun row hrow => ?_, fun row hrow => ?_, ?_⟩
    · exact (mem_afterReserve.2 row hrow).elim (hsound.small.attestations row) fun his => his.small hsmall
    · exact (mem_afterReserve.1 row hrow).elim (hsound.small.blocks row) fun his => his.small hsmall
    · rw [afterReserve_watermarks]
      exact hsound.small.watermarks
  blockKeys := h.extends.blocks.keyedBy hsound.blockKeys
  attestationKeys := h.extends.attestations.keyedBy hsound.attestationKeys
  blocks row hrow := by
    rcases mem_afterReserve.1 row hrow with hold | his
    · exact (hsound.blocks row hold).imp_left h.extends.advances.blockCovered
    · exact .inr ⟨spec.identity, hknown, his⟩
  attestations row hrow := by
    rcases mem_afterReserve.2 row hrow with hold | his
    · exact (hsound.attestations row hold).imp_left (Floor.Covers.mono (h.extends.advances.floor_raised _))
    · exact .inr ⟨spec.identity, hknown, his⟩

/-- An accepted message has its row afterwards, its own or the one it repeats. That the repeated row has
the same source takes that the root of a known message determines its epochs. -/
theorem SpecAccepted.records (h : SpecAccepted db t spec reservation) (hsound : t.Sound known)
    (hsmall : spec.kind.Small) (hroots : ∀ id, known id → id.signingRoot = spec.signingRootHex → id.kind = spec.kind) :
    (t.afterReserve spec reservation).Records spec.identity := by
  cases h with
  | @block slot verdict hkind hacc =>
    have hid : spec.identity.kind = .block slot := hkind
    rw [records_block hid]
    cases verdict with
    | stage =>
      refine ⟨spec.blockRow slot, ?_, rfl, rfl, rfl⟩
      simp [afterReserve, reservation, withReserved, hkind]
    | resign =>
      obtain ⟨row, hrow, hres⟩ := hacc.slot
      obtain ⟨hmem, hpk, hslot⟩ := rowAtSlot_some hrow
      exact ⟨row, hmem, hpk, hslot, eq_of_isResign hres⟩
  | @attestation source target verdict hkind hacc =>
    have hid : spec.identity.kind = .attestation source target := hkind
    rw [records_attestation hid]
    cases verdict with
    | stage =>
      refine ⟨spec.attestationRow source target, ?_, rfl, rfl, rfl, rfl⟩
      simp [afterReserve, reservation, withReserved, hkind]
    | duplicate =>
      obtain ⟨row, hrow, hres⟩ := hacc.target
      obtain ⟨hmem, hpk, htarget⟩ := rowAtTarget_some hrow
      have hroot : row.signingRoot = spec.signingRootHex := eq_of_isResign hres
      refine ⟨row, hmem, hpk, ?_, htarget, hroot⟩
      rcases hsound.attestations row hmem with hcov | ⟨id, hknown, his⟩
      · -- a covered row is under the target floor, and the candidate was above it
        obtain ⟨-, wt, hwt, hle⟩ := hcov
        rw [hkind] at hsmall
        have hle' : asI64 target ≤ wt := htarget.symm.le.trans hle
        have hbelow : target ≤ asU64 wt := le_asU64 hsmall.2 (hsound.small.watermarks _ _ hwt) hle'
        exact absurd hacc (AttestationRefusal.not_accepted (.belowTarget (hpk ▸ hwt) hbelow))
      · obtain ⟨source', target', hkind', -, hsource, -, hroot'⟩ := is_iff.mp his
        have hsame := hroots id hknown (hroot'.symm.trans hroot)
        rw [hkind', hkind] at hsame
        cases hsame
        exact hsource

end

/-! ### Rows that are needed -/

/-- The rows of these identities are there, and no two of one key conflict. -/
structure Tables.Keeps (needed : RowIdentity → Prop) (t : Tables) : Prop where
  recorded : ∀ id, needed id → t.Records id
  apart : ∀ id id', needed id → needed id' → id.pubkey = id'.pubkey → id.kind.Conflicts id'.kind → id = id'

namespace Tables.Keeps

variable {known needed needed' : RowIdentity → Prop} {t : Tables}

theorem mono (h : t.Keeps needed) (hsub : ∀ id, needed' id → needed id) : t.Keeps needed' :=
  ⟨fun id hid => h.recorded id (hsub id hid), fun id id' hid hid' => h.apart id id' (hsub id hid) (hsub id' hid')⟩

theorem without (h : t.Keeps needed) {id : RowIdentity} (hgone : ¬ needed id) (hsmall : id.kind.Small)
    (hneeded : ∀ id', needed id' → id'.kind.Small) : (t.without id).Keeps needed := by
  refine ⟨fun id' hid' => ?_, h.apart⟩
  have hne : id ≠ id' := fun heq => hgone (heq ▸ hid')
  exact (h.recorded id' hid').without hne hsmall (hneeded id' hid')

theorem reserve {db : SlashingDb} {spec : ReserveSpec} {reservation : CommittedReservation}
    (h : t.Keeps needed) (hsound : t.Sound known) (hacc : SpecAccepted db t spec reservation)
    (hsmall : ∀ id, known id → id.kind.Small) (hneeded : ∀ id, needed id → known id) (hspec : known spec.identity)
    (hroots : ∀ id, known id → id.signingRoot = spec.signingRootHex → id.kind = spec.kind)
    (hsub : ∀ id, needed' id → needed id ∨ id = spec.identity) :
    (t.afterReserve spec reservation).Keeps needed' := by
  have hown : ∀ id, needed id → id.pubkey = spec.pubkey → spec.kind.Conflicts id.kind →
      id = spec.identity := by
    intro id hid hpubkey hconf
    have hknown := hneeded id hid
    obtain ⟨-, hroot⟩ := hacc.of_records hsound (hsmall _ hspec) (hsmall id hknown) hpubkey hconf (h.recorded id hid)
    exact RowIdentity.ext hpubkey (hroots id hknown hroot) hroot
  refine ⟨fun id hid => ?_, fun id id' hid hid' hpubkey hconf => ?_⟩
  · rcases hsub id hid with hid | rfl
    · exact (h.recorded id hid).extends hacc.extends
    · exact hacc.records hsound (hsmall _ hspec) hroots
  · rcases hsub id hid with hid | rfl
    · rcases hsub id' hid' with hid' | rfl
      · exact h.apart id id' hid hid' hpubkey hconf
      · exact hown id hid hpubkey hconf.symm
    · rcases hsub id' hid' with hid' | rfl
      · exact (hown id' hid' hpubkey.symm hconf).symm
      · rfl

end Tables.Keeps

end Rvc.Slashing
