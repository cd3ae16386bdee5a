import Rvc.Slashing.Operations

/-!
# Reserve, then reconcile

A reserve that inserted its row, and the reconcile that deletes it again, leave nothing behind, whatever was done
for other pubkeys in between. The delete goes by pubkey, slot or epochs, and root, not by a row's number. That it
hits one row only rests on the rules, which let a row in at a free slot or target only. That what happened in
between is as it would have been without the row rests on the frame: a call for one pubkey reads and writes the
rows of that pubkey, so deleting a row of another commutes with it (`Operation.run_without`).
-/

namespace Rvc.Slashing

open Rvc.Lib Rvc.EthTypes Rvc.Observability List Tables AttestationRow BlockRow ReserveSpec Slashing

/-! ### What the check of one pubkey reads -/

variable {pubkey : String} {spec : ReserveSpec}

section

variable {t t' : Tables}

theorem Tables.checkBlock_congr (hrows : t'.blocksOf pubkey = t.blocksOf pubkey)
    (hwm : t'.watermarks = t.watermarks) (candidate : BlockCandidate) (strict : Bool) :
    t'.checkBlock pubkey candidate strict = t.checkBlock pubkey candidate strict := by
  simp only [checkBlock, targetedSqlBlockHistory, rowAtSlot, blockWatermarks, readWatermark, hrows, hwm]

theorem Tables.checkAttestation_congr
    (hrows : t'.attestationsOf pubkey = t.attestationsOf pubkey) (hwm : t'.watermarks = t.watermarks)
    (candidate : AttestationCandidate) (strict : Bool) :
    t'.checkAttestation pubkey candidate strict = t.checkAttestation pubkey candidate strict := by
  simp only [checkAttestation, targetedSqlAttestationHistory, rowAtTarget,
    rowSurroundedBy, rowSurrounding, attestationWatermarks, readWatermark, hrows, hwm]

theorem checkSpecInTxn_congr {db : SlashingDb} (hblocks : t'.blocksOf spec.pubkey = t.blocksOf spec.pubkey)
    (hattestations : t'.attestationsOf spec.pubkey = t.attestationsOf spec.pubkey)
    (hwm : t'.watermarks = t.watermarks) : checkSpecInTxn db t' spec = checkSpecInTxn db t spec := by
  unfold checkSpecInTxn
  cases spec.kind with
  | block slot => simp only [checkBlock_congr hblocks hwm]
  | attestation source target => simp only [checkAttestation_congr hattestations hwm]

end

/-! ### Deleting a row of another pubkey -/

variable {parsed : List ParsedValidator}

section

variable {db : SlashingDb} {t : Tables} {id : RowIdentity}

theorem BlockRow.not_is_of_pubkey {row : BlockRow} (h : row.pubkey ≠ id.pubkey) : ¬ row.Is id := fun his => by
  obtain ⟨slot, -, hpk, -⟩ := BlockRow.is_iff.mp his
  exact h hpk

theorem AttestationRow.not_is_of_pubkey {row : AttestationRow} (h : row.pubkey ≠ id.pubkey) : ¬ row.Is id :=
  fun his => by
    obtain ⟨source, target, -, hpk, -⟩ := is_iff.mp his
    exact h hpk

theorem Tables.blocksOf_without (h : pubkey ≠ id.pubkey) : (t.without id).blocksOf pubkey = t.blocksOf pubkey := by
  rw [blocksOf, without, filter_filter]
  refine filter_congr fun row _ => ?_
  by_cases hpk : row.pubkey = pubkey
  · simp [hpk, not_is_of_pubkey (hpk ▸ h)]
  · simp [hpk]

theorem Tables.attestationsOf_without (h : pubkey ≠ id.pubkey) :
    (t.without id).attestationsOf pubkey = t.attestationsOf pubkey := by
  rw [attestationsOf, without, filter_filter]
  refine filter_congr fun row _ => ?_
  by_cases hpk : row.pubkey = pubkey
  · simp [hpk, not_is_of_pubkey (hpk ▸ h)]
  · simp [hpk]

structure Tables.SameRows (pubkey : String) (t t' : Tables) : Prop where
  blocks : t'.blocksOf pubkey = t.blocksOf pubkey
  attestations : t'.attestationsOf pubkey = t.attestationsOf pubkey

theorem Tables.SameRows.refl (pubkey : String) (t : Tables) : SameRows pubkey t t := ⟨rfl, rfl⟩

theorem Tables.SameRows.trans {t' t'' : Tables} (h : SameRows pubkey t t') (h' : SameRows pubkey t' t'') :
    SameRows pubkey t t'' :=
  ⟨h'.blocks.trans h.blocks, h'.attestations.trans h.attestations⟩

theorem Tables.sameRows_without (h : pubkey ≠ id.pubkey) : SameRows pubkey t (t.without id) :=
  ⟨blocksOf_without h, attestationsOf_without h⟩

theorem Tables.count_eq (t : Tables) (id : RowIdentity) :
    t.count id = (t.blocksOf id.pubkey).countP (fun row => row.Is id) +
      (t.attestationsOf id.pubkey).countP fun row => row.Is id := by
  unfold count blocksOf attestationsOf
  rw [countP_filter, countP_filter]
  congr 1
  · refine countP_congr fun row _ => ?_
    by_cases hpk : row.pubkey = id.pubkey
    · simp [hpk]
    · simp [hpk, not_is_of_pubkey hpk]
  · refine countP_congr fun row _ => ?_
    by_cases hpk : row.pubkey = id.pubkey
    · simp [hpk]
    · simp [hpk, not_is_of_pubkey hpk]

theorem Tables.SameRows.count {t' : Tables} (h : SameRows id.pubkey t t') : t'.count id = t.count id := by
  rw [count_eq, count_eq, h.blocks, h.attestations]

theorem checkSpecInTxn_without (h : spec.pubkey ≠ id.pubkey) :
    checkSpecInTxn db (t.without id) spec = checkSpecInTxn db t spec :=
  checkSpecInTxn_congr (blocksOf_without h) (attestationsOf_without h) rfl

theorem Tables.afterReserve_without (h : spec.pubkey ≠ id.pubkey) (reservation : CommittedReservation) :
    (t.without id).afterReserve spec reservation = (t.afterReserve spec reservation).without id := by
  have hblock : ∀ slot, ¬ (spec.blockRow slot).Is id := fun slot => not_is_of_pubkey h
  have hattestation : ∀ source target, ¬ (spec.attestationRow source target).Is id :=
    fun source target => not_is_of_pubkey h
  unfold afterReserve withReserved
  cases reservation.inserted with
  | false => rfl
  | true =>
    cases spec.kind with
    | block slot => simp [without, filter_append, hblock slot]
    | attestation source target => simp [without, filter_append, hattestation source target]

theorem Tables.sameRows_afterReserve (h : spec.pubkey ≠ pubkey)
    (reservation : CommittedReservation) : SameRows pubkey t (t.afterReserve spec reservation) := by
  unfold afterReserve withReserved
  cases reservation.inserted with
  | false => exact .refl pubkey t
  | true =>
    cases spec.kind with
    | block slot => exact ⟨by simp [blocksOf, blockRow, h], rfl⟩
    | attestation source target => exact ⟨rfl, by simp [attestationsOf, attestationRow, h]⟩

theorem Tables.without_comm (t : Tables) (id id' : RowIdentity) :
    (t.without id).without id' = (t.without id').without id := by
  simp only [without, filter_filter, Bool.and_comm]

theorem reconcileUnsigned_deleted {reservation : CommittedReservation} (hinserted : reservation.inserted = true)
    (hone : t.count reservation.identity = 1) : reconcileUnsigned ⟨none, none, none⟩ ⟨t, none⟩ reservation =
      (.deleted, ⟨t.without reservation.identity, none⟩) := by
  simp [reconcileUnsigned, hinserted, Conn.withImmediateTxn, Conn.beginImmediate, reconcileDeleteTxn,
    deleteReservedRow_eq, hone, Conn.commit]

theorem reconcileUnsigned_eq (t : Tables) (reservation : CommittedReservation) :
    (reconcileUnsigned ⟨none, none, none⟩ ⟨t, none⟩ reservation).2.committed =
      if reservation.inserted ∧ t.count reservation.identity = 1 then t.without reservation.identity else t := by
  split
  · next h => rw [reconcileUnsigned_deleted h.1 h.2]
  · next h =>
    have hspec := reconcileUnsigned_spec ⟨none, none, none⟩ t reservation
    generalize reconcileUnsigned ⟨none, none, none⟩ ⟨t, none⟩ reservation = result at hspec ⊢
    cases hspec with
    | deleted hinserted hone => exact absurd ⟨hinserted, hone⟩ h
    | kept => rfl

/-! ### Importing for other pubkeys -/

theorem insertParsedAttestation_without (gvrHex : String) (h : pubkey ≠ id.pubkey)
    (attestation : ParsedAttestation) (t : Tables) : (insertParsedAttestation gvrHex pubkey attestation t).without id =
      insertParsedAttestation gvrHex pubkey attestation (t.without id) := by
  -- the statement looks at the rows of its own pubkey only
  have hown : ∀ u : Tables, (u.attestations.any fun row =>
        row.pubkey = pubkey ∧ row.targetEpoch = asI64 attestation.targetEpoch) =
      (u.attestationsOf pubkey).any fun row => row.targetEpoch = asI64 attestation.targetEpoch := fun u => by
    simp [attestationsOf, any_filter]
  have hnew : ¬ AttestationRow.Is ⟨auditOrigin, pubkey, asI64 attestation.sourceEpoch,
      asI64 attestation.targetEpoch, attestation.signingRoot, some gvrHex⟩ id := not_is_of_pubkey h
  unfold insertParsedAttestation
  rw [hown, hown, attestationsOf_without h]
  split
  · rfl
  · simp [without, filter_append, hnew]

theorem insertParsedBlock_without (gvrHex : String) (h : pubkey ≠ id.pubkey) (block : ParsedBlock) (t : Tables) :
    (insertParsedBlock gvrHex pubkey block t).without id = insertParsedBlock gvrHex pubkey block (t.without id) := by
  have hown : ∀ u : Tables, (u.blocks.any fun row => row.pubkey = pubkey ∧ row.slot = asI64 block.slot) =
      (u.blocksOf pubkey).any fun row => row.slot = asI64 block.slot := fun u => by
    simp [blocksOf, any_filter]
  have hnew : ¬ BlockRow.Is ⟨auditOrigin, pubkey, asI64 block.slot, block.signingRoot, some gvrHex⟩ id :=
    not_is_of_pubkey h
  unfold insertParsedBlock
  rw [hown, hown, blocksOf_without h]
  split
  · rfl
  · simp [without, filter_append, hnew]

theorem raiseWatermarkMax_without (kind : WatermarkKind) (value : Nat) (t : Tables) :
    (raiseWatermarkMax t pubkey kind value).without id = raiseWatermarkMax (t.without id) pubkey kind value := by
  have hwm : (t.without id).watermarks = t.watermarks := rfl
  unfold raiseWatermarkMax
  rw [hwm]
  cases t.watermarks.lookup (pubkey, kind) <;> rfl

theorem importStatements_without {gvrHex : String}
    (h : ∀ validator ∈ parsed, validator.pubkey ≠ id.pubkey) (t : Tables) :
    (applyAll (importStatements gvrHex parsed) t).without id =
      applyAll (importStatements gvrHex parsed) (t.without id) := by
  refine @applyAll_commute _ _ (fun t : Tables => t.without id) (fun statement hmem t => ?_) t
  obtain ⟨validator, hvalidator, hmem⟩ := mem_flatMap.mp hmem
  have hpk := h validator hvalidator
  rcases mem_append.mp hmem with hmem | hmem
  · obtain ⟨attestation, -, rfl⟩ := mem_map.mp hmem
    exact insertParsedAttestation_without gvrHex hpk attestation t
  rcases mem_append.mp hmem with hmem | hmem
  · obtain ⟨block, -, rfl⟩ := mem_map.mp hmem
    exact insertParsedBlock_without gvrHex hpk block t
  · obtain ⟨kind, value, rfl, -⟩ := mem_watermarkStatements hmem
    exact raiseWatermarkMax_without kind value t

theorem importStatements_sameRows {gvrHex : String} (h : ∀ validator ∈ parsed, validator.pubkey ≠ pubkey) (t : Tables) :
    Tables.SameRows pubkey t (applyAll (importStatements gvrHex parsed) t) := by
  refine import_invariant (P := fun t' => Tables.SameRows pubkey t t') (fun t' t'' hstep ht' => ht'.trans ?_)
    (.refl pubkey t)
  cases hstep with
  | kept => exact .refl pubkey t'
  | attestation hvalidator _ hrow => exact ⟨rfl, by simp [attestationsOf, hrow, h _ hvalidator]⟩
  | block hvalidator _ hrow => exact ⟨by simp [blocksOf, hrow, h _ hvalidator], rfl⟩
  | @raised validator kind value =>
    have hraised := raiseWatermarkMax_raised t' validator.pubkey kind value
    exact ⟨by rw [blocksOf, hraised.blocks]; rfl, by rw [attestationsOf, hraised.attestations]; rfl⟩

end

/-! ### Calls for other pubkeys -/

/-- The call names no pubkey that normalises to `pubkey`. A prune is a call for every pubkey. -/
def Operation.Spares (pubkey : String) : Operation → Prop
  | .reserve pubkeyHex _ _ _ => normalizePubkey pubkeyHex ≠ pubkey
  | .stage pubkeyHex _ _ _ => normalizePubkey pubkeyHex ≠ pubkey
  | .reconcile reservation => normalizePubkey reservation.pubkeyHex ≠ pubkey
  | .importFile file _ => ∀ record ∈ file.data, normalizePubkey record.pubkey ≠ pubkey
  | .prune => False
  | .setBlockWatermark other _ => normalizePubkey other ≠ pubkey
  | .setAttestationWatermark other _ _ => normalizePubkey other ≠ pubkey

instance (pubkey : String) (operation : Operation) : Decidable (operation.Spares pubkey) := by
  unfold Operation.Spares
  cases operation <;> infer_instance

theorem parsed_pubkey_ne {file : InterchangeFormat} (h : ∀ record ∈ file.data, normalizePubkey record.pubkey ≠ pubkey)
    (hparse : parseInterchange file = .ok parsed) : ∀ validator ∈ parsed, validator.pubkey ≠ pubkey := by
  intro validator hvalidator
  obtain ⟨record, hrecord, hv⟩ := exists_of_mem_mapM hparse hvalidator
  obtain ⟨-, -, hpk, -⟩ := parseValidator_ok hv
  rw [hpk]
  exact h record hrecord

variable {signingRootHex : Option String} {kind : ReservationKind} {pubkeyHex : String}

section

variable {db : SlashingDb} {t : Tables} {id : RowIdentity}

theorem raiseWatermark_map {kind : WatermarkKind} {value : Nat} : raiseWatermark (t.without id) pubkey kind value =
      (raiseWatermark t pubkey kind value).map (·.without id) := by
  have hread : readWatermark (t.without id) pubkey kind = readWatermark t pubkey kind := rfl
  unfold raiseWatermark
  rw [hread]
  cases readWatermark t pubkey kind with
  | none => rfl
  | some current =>
    by_cases hlt : value < current
    · simp [hlt, Except.map]
    · simp [hlt, Except.map, without, putWatermark]

theorem inTxn_map {result result' : Except SlashingError Tables} (h : result' = result.map (·.without id)) :
    (inTxn (t.without id) result').2 = (inTxn t result).2.without id := by
  cases result <;> rw [h] <;> rfl

theorem reserve_without (h : spec.pubkey ≠ id.pubkey) :
    (reserve db (t.without id) spec).2 = (reserve db t spec).2.without id := by
  have hcheck : checkSpecInTxn db (t.without id) spec = checkSpecInTxn db t spec := checkSpecInTxn_without h
  have hgvr : gvrMismatchOnConn (t.without id) spec = gvrMismatchOnConn t spec := rfl
  cases hok : checkSpecInTxn db t spec with
  | error e => rw [reserve_of_check_error hok, reserve_of_check_error (hcheck.trans hok)]
  | ok reservation =>
  cases hmismatch : gvrMismatchOnConn t spec with
  | error e => rw [reserve_of_gvr_error hok hmismatch, reserve_of_gvr_error (hcheck.trans hok) (hgvr.trans hmismatch)]
  | ok =>
    rw [reserve_of_accepted hok hmismatch, reserve_of_accepted (hcheck.trans hok) (hgvr.trans hmismatch)]
    exact afterReserve_without h _

theorem reserveMessage_without {gvr : Root} (h : normalizePubkey pubkeyHex ≠ id.pubkey) :
    (reserveMessage db (t.without id) pubkeyHex kind signingRootHex gvr).2 =
      (reserveMessage db t pubkeyHex kind signingRootHex gvr).2.without id := by
  have hgvr : checkGvrBeforeLock (t.without id) gvr = checkGvrBeforeLock t gvr := rfl
  cases hcheck : checkGvrBeforeLock t gvr with
  | error e => rw [reserveMessage_error hcheck, reserveMessage_error (hgvr.trans hcheck)]
  | ok =>
    rw [reserveMessage_eq hcheck, reserveMessage_eq (hgvr.trans hcheck)]
    exact reserve_without h

theorem stageMessage_without {gvr : Root} (h : normalizePubkey pubkeyHex ≠ id.pubkey) :
    (stageMessage db (t.without id) pubkeyHex kind signingRootHex gvr).2 =
      (stageMessage db t pubkeyHex kind signingRootHex gvr).2.without id := by
  have hgvr : checkGvrBeforeLock (t.without id) gvr = checkGvrBeforeLock t gvr := rfl
  have hspec : (of pubkeyHex kind signingRootHex gvr).pubkey ≠ id.pubkey := h
  cases hcheck : checkGvrBeforeLock t gvr with
  | error e => rw [stageMessage_error hcheck, stageMessage_error (hgvr.trans hcheck)]
  | ok =>
    rw [stageMessage_eq hcheck, stageMessage_eq (hgvr.trans hcheck), checkSpecInTxn_without hspec]
    cases checkSpecInTxn db t (.of pubkeyHex kind signingRootHex gvr) with
    | error e => rfl
    | ok reservation => exact afterReserve_without hspec reservation

theorem importInterchange_without {file : InterchangeFormat} {gvr : Root}
    (h : ∀ record ∈ file.data, normalizePubkey record.pubkey ≠ id.pubkey) :
    (importInterchange .none ⟨t.without id, none⟩ file gvr).2.committed =
      (importInterchange .none ⟨t, none⟩ file gvr).2.committed.without id := by
  cases hmeta : validateInterchangeMetadata file gvr with
  | error e => simp only [importInterchange, hmeta]
  | ok =>
    cases hparse : parseInterchange file with
    | error e => simp only [importInterchange, hmeta, hparse]
    | ok parsed =>
      rw [importInterchange_ok hmeta hparse, importInterchange_ok hmeta hparse]
      exact (importStatements_without (parsed_pubkey_ne h hparse) t).symm

/-- **The frame**: a call for other pubkeys does the same with a row of this one as without it. -/
theorem Operation.run_without {operation : Operation} (h : operation.Spares id.pubkey) :
    (operation.run db (t.without id)).2 = (operation.run db t).2.without id := by
  cases operation with
  | reserve pubkeyHex kind signingRootHex gvr => exact reserveMessage_without h
  | stage pubkeyHex kind signingRootHex gvr => exact stageMessage_without h
  | reconcile reservation =>
    have hpk : reservation.identity.pubkey ≠ id.pubkey := h
    show (reconcileUnsigned _ _ _).2.committed = (reconcileUnsigned _ _ _).2.committed.without id
    rw [reconcileUnsigned_eq, reconcileUnsigned_eq, (sameRows_without hpk).count]
    split
    · exact without_comm t id reservation.identity
    · rfl
  | importFile file gvr => exact importInterchange_without h
  | prune => cases h
  | setBlockWatermark pubkey slot => exact inTxn_map raiseWatermark_map
  | setAttestationWatermark pubkey sourceEpoch targetEpoch =>
    have hset : Slashing.setAttestationWatermark (t.without id) pubkey sourceEpoch.toNat targetEpoch.toNat =
        (Slashing.setAttestationWatermark t pubkey sourceEpoch.toNat targetEpoch.toNat).map (·.without id) := by
      unfold Slashing.setAttestationWatermark
      rw [raiseWatermark_map]
      cases raiseWatermark t (normalizePubkey pubkey) .attestationSource sourceEpoch.toNat with
      | error e => rfl
      | ok raised => exact raiseWatermark_map
    simp only [run, setAttestationWatermarkTxn_eq, hset]
    cases Slashing.setAttestationWatermark t pubkey sourceEpoch.toNat targetEpoch.toNat <;> rfl

theorem Operation.run_sameRows {operation : Operation} (h : operation.Spares pubkey) :
    Tables.SameRows pubkey t (operation.run db t).2 := by
  have heffect := run_effect db t operation
  generalize (operation.run db t).2 = t' at heffect
  cases heffect with
  | unchanged => exact .refl pubkey t
  | reserved | staged =>
    refine sameRows_afterReserve ?_ _
    exact h
  | reconciled => exact sameRows_without (Ne.symm h)
  | imported hparse => exact importStatements_sameRows (parsed_pubkey_ne h hparse) t
  | pruned => cases h
  | blockRaised hok =>
    obtain ⟨rfl, -⟩ := raiseWatermark_ok hok
    exact ⟨rfl, rfl⟩
  | attestationRaised hok =>
    obtain ⟨raised, hsource, htarget⟩ := bind_eq_ok.mp hok
    obtain ⟨rfl, -⟩ := raiseWatermark_ok hsource
    obtain ⟨rfl, -⟩ := raiseWatermark_ok htarget
    exact ⟨rfl, rfl⟩

theorem Operation.runAll_without {operations : List Operation}
    (h : ∀ operation ∈ operations, operation.Spares id.pubkey) (t : Tables) :
    runAll db (t.without id) operations = (runAll db t operations).without id := by
  induction operations generalizing t with
  | nil => rfl
  | cons operation rest ih =>
    show runAll db (operation.run db (t.without id)).2 rest = (runAll db (operation.run db t).2 rest).without id
    rw [run_without (h operation mem_cons_self)]
    exact ih (fun op hop => h op (mem_cons_of_mem _ hop)) _

theorem Operation.runAll_sameRows {operations : List Operation}
    (h : ∀ operation ∈ operations, operation.Spares pubkey) (t : Tables) :
    Tables.SameRows pubkey t (runAll db t operations) :=
  runAll_invariant (P := fun t' => Tables.SameRows pubkey t t')
    (fun operation hop _ ht' => ht'.trans (run_sameRows (h operation hop))) (.refl pubkey t)

end

/-! ### The pair -/

section

variable {db : SlashingDb} {t : Tables} {reservation : CommittedReservation}

theorem SpecAccepted.reservation_eq (h : SpecAccepted db t spec reservation) :
    reservation = spec.reservation reservation.inserted := by
  cases h <;> rfl

/-- The rules let a row in where there is none at its slot or target, so none with its identity. -/
theorem SpecAccepted.count_eq_zero (h : SpecAccepted db t spec reservation)
    (hinserted : reservation.inserted = true) : t.count spec.identity = 0 := by
  refine Nat.add_eq_zero_iff.mpr ⟨?_, ?_⟩
  · refine countP_eq_zero.mpr fun row hrow his => ?_
    obtain ⟨slot, hslot, hpk, hat, -⟩ := is_iff.mp (of_decide_eq_true his)
    cases h with
    | @attestation source target verdict hkind => cases hkind.symm.trans hslot
    | @block slot' verdict hkind hacc =>
      cases verdict with
      | resign => cases hinserted
      | stage =>
        obtain rfl := ReservationKind.block.inj (hkind.symm.trans hslot)
        exact hacc.slot row hrow hpk hat
  · refine countP_eq_zero.mpr fun row hrow his => ?_
    obtain ⟨source, target, hepochs, hpk, -, hat, -⟩ := is_iff.mp (of_decide_eq_true his)
    cases h with
    | @block slot' verdict hkind => cases hkind.symm.trans hepochs
    | @attestation source' target' verdict hkind hacc =>
      cases verdict with
      | duplicate => cases hinserted
      | stage =>
        obtain ⟨rfl, rfl⟩ := ReservationKind.attestation.inj (hkind.symm.trans hepochs)
        exact hacc.target row hrow hpk hat

theorem ReserveSpec.blockRow_is {slot : Nat} (h : spec.kind = .block slot) : (spec.blockRow slot).Is spec.identity :=
  is_iff.mpr ⟨slot, h, rfl, rfl, rfl⟩

theorem ReserveSpec.attestationRow_is {source target : Nat} (h : spec.kind = .attestation source target) :
    (spec.attestationRow source target).Is spec.identity :=
  is_iff.mpr ⟨source, target, h, rfl, rfl, rfl, rfl⟩

theorem Tables.withReserved_count (h : t.count spec.identity = 0) :
    (t.withReserved spec).count spec.identity = 1 ∧ (t.withReserved spec).without spec.identity = t := by
  have hgone : (t.withReserved spec).without spec.identity = t.without spec.identity ∧
      (t.withReserved spec).count spec.identity = t.count spec.identity + 1 := by
    unfold withReserved
    cases hkind : spec.kind with
    | block slot =>
      have his := blockRow_is hkind
      exact ⟨by simp [without, his], by simp [count, his]; omega⟩
    | attestation source target =>
      have his := attestationRow_is hkind
      exact ⟨by simp [without, his], by simp [count, his]; omega⟩
  rw [hgone.1, hgone.2, h]
  exact ⟨rfl, without_eq_of_count h⟩

end

theorem reservation_identity {db : SlashingDb} {t : Tables} {gvr : Root} {reservation : CommittedReservation}
    (h : SpecAccepted db t (.of pubkeyHex kind signingRootHex gvr) reservation) :
    reservation.identity = (ReserveSpec.of pubkeyHex kind signingRootHex gvr).identity := by
  rw [h.reservation_eq]
  simp [CommittedReservation.identity, ReserveSpec.reservation, ReserveSpec.identity, ReserveSpec.of,
    normalizePubkey_idem]

/-- **Reserve, then reconcile, is the identity.** A reserve that inserted its row, any calls for other pubkeys,
and the reconcile leave the tables those calls alone would have left. A reserve that found its row there changes
nothing, and neither does its reconcile, whenever it comes. -/
theorem reserve_then_reconcile (db : SlashingDb) (t : Tables) (pubkeyHex : String) (kind : ReservationKind)
    (signingRootHex : Option String) (gvr : Root) {reservation : CommittedReservation} {t₁ : Tables}
    (hreserve : reserveMessage db t pubkeyHex kind signingRootHex gvr = (.ok reservation, t₁)) :
    (reservation.inserted = true → ∀ operations : List Operation,
      (∀ operation ∈ operations, operation.Spares (normalizePubkey pubkeyHex)) →
      reconcileUnsigned ⟨none, none, none⟩ ⟨Operation.runAll db t₁ operations, none⟩ reservation =
        (.deleted, ⟨Operation.runAll db t operations, none⟩)) ∧ (reservation.inserted = false → t₁ = t ∧ ∀ c,
      reconcileUnsigned ⟨none, none, none⟩ c reservation = (.notApplicable, c)) := by
  rcases @reserveMessage_cases db t pubkeyHex kind signingRootHex gvr with ⟨e, heq⟩ | ⟨reservation', hacc, heq⟩
  · cases (Prod.mk.inj (heq.symm.trans hreserve)).1
  obtain ⟨hreply, rfl⟩ := Prod.mk.inj (heq.symm.trans hreserve)
  cases hreply
  refine ⟨fun hinserted operations hspares => ?_, fun hrepeat => ⟨?_, fun c => ?_⟩⟩
  · have hid := reservation_identity hacc
    obtain ⟨hone, hgone⟩ := withReserved_count (hacc.count_eq_zero hinserted)
    rw [afterReserve, if_pos hinserted]
    -- the row is still alone of its identity, and deleting it commutes with the calls
    have hothers : ∀ operation ∈ operations,
        operation.Spares (of pubkeyHex kind signingRootHex gvr).identity.pubkey := hspares
    have hstill := (@Operation.runAll_sameRows _ db _ hothers (t.withReserved _)).count.trans hone
    rw [reconcileUnsigned_deleted hinserted (by rw [hid]; exact hstill), hid, ← Operation.runAll_without hothers, hgone]
  · rw [afterReserve, hrepeat]
    rfl
  · simp [reconcileUnsigned, hrepeat]

def othersMeanwhile : List Operation :=
  [.reserve "0xbb" (.attestation 1 2) (some "0x02") zeroRoot,
    .importFile ⟨⟨"5", rootToHex zeroRoot⟩, [⟨"0xcc", [⟨"9", none⟩], [⟨"1", "4", none⟩]⟩]⟩ zeroRoot,
    .reserve "0xbb" (.block 7) (some "0x03") zeroRoot,
    .reconcile ⟨"0xbb", .block 7, some "0x03", true⟩]

theorem reserve_then_reconcile_block :
    (reserveMessage ⟨true, 0⟩ Tables.empty "0xAA" (.block 5) (some "0x01") zeroRoot).1 =
        .ok ⟨"0xaa", .block 5, some "0x01", true⟩ ∧
      (Operation.runAll ⟨true, 0⟩ Tables.empty othersMeanwhile).attestations.length = 2 ∧
      reconcileUnsigned ⟨none, none, none⟩ ⟨Operation.runAll ⟨true, 0⟩
            (reserveMessage ⟨true, 0⟩ Tables.empty "0xAA" (.block 5) (some "0x01") zeroRoot).2 othersMeanwhile, none⟩
          ⟨"0xaa", .block 5, some "0x01", true⟩ =
        (.deleted, ⟨Operation.runAll ⟨true, 0⟩ Tables.empty othersMeanwhile, none⟩) := by
  have hok : (reserveMessage ⟨true, 0⟩ empty "0xAA" (.block 5) (some "0x01") zeroRoot).1 =
      .ok ⟨"0xaa", .block 5, some "0x01", true⟩ := by decide +kernel
  refine ⟨hok, by decide +kernel, ?_⟩
  exact (reserve_then_reconcile ⟨true, 0⟩ empty "0xAA" (.block 5) (some "0x01") zeroRoot (Prod.ext hok rfl)).1
    rfl othersMeanwhile (by decide +kernel)

end Rvc.Slashing
