import Rvc.Slashing.Interchange.LeastFloor
import Rvc.Slashing.Operations
import Rvc.Slashing.Prune

/-!
# A database that can be exported

An export fails when the attestation floor of a validator cannot be written as one vote: half of it is missing,
or its source is past its target. Neither happens to a database that has seen votes with source at most target
only. An imported file sets both halves of a floor or none, a prune raises a source only to that of a row below
the target, and the loop of the synthetic bounds stays below the target bound with its source
(`floorSource_le`). So every run of imports, reserves, reconciles and prunes keeps the database exportable
(`Tables.Exportable`).
-/

namespace Rvc.Slashing

open Rvc.Lib Rvc.EthTypes Rvc.Observability List Option Slashing Tables

/-! ### The invariant -/

/-- Both halves of a floor are set, the source at most the target, or neither is. -/
inductive OrderedFloor : Option Int → Option Int → Prop
  | none : OrderedFloor none none
  | both {source target : Int} (hsource : 0 ≤ source) (hle : source ≤ target) (htarget : target < 2 ^ 63) :
      OrderedFloor (some source) (some target)

theorem OrderedFloor.raise {ws wt : Option Int} (h : OrderedFloor ws wt) {source target : Int} (hsource : 0 ≤ source)
    (hle : source ≤ target) (htarget : target < 2 ^ 63) :
    OrderedFloor (some (raisedTo ws source)) (some (raisedTo wt target)) := by
  cases h with
  | none => exact .both hsource hle htarget
  | both hs hst ht =>
    simp only [raisedTo, map_some, getD_some]
    exact .both (by omega) (by omega) (by omega)

theorem OrderedFloor.raise_source {ws : Option Int} {wt source : Int} (h : OrderedFloor ws (some wt))
    (hsource : 0 ≤ source) (hle : source ≤ wt) : OrderedFloor (some (raisedTo ws source)) (some wt) := by
  cases h with
  | both hs hst ht =>
    simp only [raisedTo, map_some, getD_some]
    exact .both (by omega) (by omega) ht

def AttestationRow.Ordered (row : AttestationRow) : Prop :=
  0 ≤ row.sourceEpoch ∧ row.sourceEpoch ≤ row.targetEpoch ∧ row.targetEpoch < 2 ^ 63

/-- Every row and every floor is a vote with source at most target. -/
structure Tables.Exportable (t : Tables) : Prop where
  rows : ∀ row ∈ t.attestations, row.Ordered
  floors : ∀ pubkey, OrderedFloor (t.floor pubkey).source (t.floor pubkey).target

theorem Tables.exportable_empty (gvr : Option String) : Exportable { Tables.empty with metadataGvr := gvr } :=
  ⟨fun _ hrow => absurd hrow not_mem_nil, fun _ => .none⟩

/-! ### Exporting -/

theorem floorSource_le {rows : Finset (Nat × Nat)} {sourceWm target : Nat} (hwm : sourceWm ≤ target)
    (hrows : ∀ row ∈ rows, row.1 ≤ row.2) : floorSource rows sourceWm target ≤ target := by
  refine max_le hwm (Finset.sup_le fun row hrow => ?_)
  obtain ⟨hmem, hle⟩ := Finset.mem_filter.mp hrow
  exact (hrows row hmem).trans hle

theorem attestationSyntheticBounds_ok {rows : List (Nat × Nat)} {sourceWm targetWm : Nat}
    (hwm : sourceWm ≤ targetWm) (hrows : ∀ row ∈ rows, row.1 ≤ row.2) :
    attestationSyntheticBounds rows sourceWm targetWm = .ok (syntheticLoop rows sourceWm targetWm) := by
  obtain ⟨⟨hclosed, -⟩, hsource⟩ := syntheticLoop_isLeast rows sourceWm targetWm
  refine if_neg (Nat.not_lt.mpr ?_)
  rw [hsource]
  exact floorSource_le (hwm.trans hclosed.1) fun row hrow => hrows row (mem_toFinset.mp hrow)

section

variable {t : Tables}

theorem Tables.Exportable.exportRows_le (h : t.Exportable) {pubkey : String} :
    ∀ row ∈ exportRows t pubkey, row.1 ≤ row.2 := by
  intro pair hpair
  obtain ⟨row, hrow, -, rfl⟩ := mem_exportRows.mp hpair
  obtain ⟨hsource, hle, htarget⟩ := h.rows row hrow
  exact asU64_mono ⟨hsource, by omega⟩ ⟨by omega, htarget⟩ hle

theorem Tables.Exportable.exportAttestations (h : t.Exportable) (pubkey : String) :
    ∃ records, exportAttestations t pubkey = .ok records := by
  have hfloor := h.floors pubkey
  unfold Slashing.exportAttestations readWatermark
  change OrderedFloor (t.watermarks.lookup (pubkey, .attestationSource))
    (t.watermarks.lookup (pubkey, .attestationTarget)) at hfloor
  generalize t.watermarks.lookup (pubkey, .attestationSource) = ws at hfloor
  generalize t.watermarks.lookup (pubkey, .attestationTarget) = wt at hfloor
  cases hfloor with
  | none => exact ⟨_, rfl⟩
  | @both source target hsource hle htarget =>
    have hwm : asU64 source ≤ asU64 target := asU64_mono ⟨hsource, by omega⟩ ⟨by omega, htarget⟩ hle
    simp only [Option.map_some, attestationSyntheticBounds_ok hwm h.exportRows_le]
    exact ⟨_, rfl⟩

theorem Tables.Exportable.exportInterchange (h : t.Exportable) (gvr : Root) :
    ∃ file, exportInterchange t gvr = .ok file := by
  have hvalidator : ∀ pubkey ∈ readAllPubkeys t, ∃ entry, exportValidator t pubkey = .ok entry := fun pubkey _ => by
    obtain ⟨records, hrecords⟩ := h.exportAttestations pubkey
    exact ⟨_, by simp only [exportValidator, hrecords, bind, Except.bind]; rfl⟩
  obtain ⟨data, hdata⟩ := mapM_ok_of_forall hvalidator
  exact ⟨_, by simp only [Slashing.exportInterchange, hdata, bind, Except.bind]; rfl⟩

/-! ### What keeps it -/

theorem Tables.Exportable.shrink {t' : Tables} (h : t.Exportable) (hrows : t'.attestations ⊆ t.attestations)
    (hwm : t'.watermarks = t.watermarks) : t'.Exportable := by
  refine ⟨fun row hrow => h.rows row (hrows hrow), fun pubkey => ?_⟩
  have hfloor : t'.floor pubkey = t.floor pubkey := by rw [floor, hwm]; rfl
  rw [hfloor]
  exact h.floors pubkey

theorem Tables.Exportable.append (h : t.Exportable) {row : AttestationRow} (hrow : row.Ordered) :
    Exportable { t with attestations := t.attestations ++ [row] } := by
  exact ⟨forall_mem_append.mpr ⟨h.rows, forall_mem_singleton.mpr hrow⟩, h.floors⟩

theorem ordered_asI64 {source target : Nat} (hle : source ≤ target) (htarget : target < 2 ^ 63) :
    0 ≤ asI64 source ∧ asI64 source ≤ asI64 target ∧ asI64 target < 2 ^ 63 := by
  rw [asI64_of_lt htarget, asI64_of_lt (by omega)]
  omega

theorem Tables.floor_raise (t : Tables) (pubkey : String) (kind : WatermarkKind) (value : Nat) (other : String) :
    (raiseWatermarkMax t pubkey kind value).floor other =
      if other = pubkey then
        match kind with
        | .block => t.floor other
        | .attestationSource => { t.floor other with source := some (raisedTo (t.floor other).source (asI64 value)) }
        | .attestationTarget => { t.floor other with target := some (raisedTo (t.floor other).target (asI64 value)) }
      else t.floor other := by
  unfold floor
  split
  · next hsame =>
    subst hsame
    cases kind with
    | block => rw [raiseWatermarkMax_lookup_ne t value (by simp), raiseWatermarkMax_lookup_ne t value (by simp)]
    | attestationSource =>
      rw [raiseWatermarkMax_lookup_self]
      congr 1
      exact raiseWatermarkMax_lookup_ne t value (by simp)
    | attestationTarget =>
      rw [raiseWatermarkMax_lookup_self, raiseWatermarkMax_lookup_ne t value (by simp)]
  · next hother =>
    rw [raiseWatermarkMax_lookup_ne t value (by simp [hother]), raiseWatermarkMax_lookup_ne t value (by simp [hother])]

section

variable (h : t.Exportable)

include h

theorem Tables.Exportable.raise_block (pubkey : String) (slot : Nat) :
    (raiseWatermarkMax t pubkey .block slot).Exportable := by
  have hraised := raiseWatermarkMax_raised t pubkey .block slot
  refine ⟨hraised.attestations ▸ h.rows, fun other => ?_⟩
  rw [floor_raise]
  rw [ite_self]
  exact h.floors other

theorem Tables.Exportable.raise_pair (pubkey : String) {source target : Nat}
    (hle : source ≤ target) (htarget : target < 2 ^ 63) :
    (raiseWatermarkMax (raiseWatermarkMax t pubkey .attestationSource source) pubkey .attestationTarget
      target).Exportable := by
  obtain ⟨hlow, hmid, hhigh⟩ := ordered_asI64 hle htarget
  have hraised := (raiseWatermarkMax_raised t pubkey .attestationSource source).trans
    (raiseWatermarkMax_raised _ pubkey .attestationTarget target)
  refine ⟨hraised.attestations ▸ h.rows, fun other => ?_⟩
  rw [floor_raise, floor_raise]
  split
  · exact (h.floors other).raise hlow hmid hhigh
  · exact h.floors other

theorem Tables.Exportable.raiseSourceBound {floor : String × Int}
    (hwm : t.watermarks.lookup (floor.1, .attestationTarget) = some floor.2) :
    (raiseSourceBound t floor).Exportable := by
  unfold Slashing.raiseSourceBound
  split
  · next maxSource hmax =>
    obtain ⟨row, hrow, rfl⟩ := mem_map.mp (List.max?_mem hmax)
    obtain ⟨hmem, hbelow⟩ := mem_filter.mp hrow
    obtain ⟨hsource, hle, htarget⟩ := h.rows row (Tables.mem_attestationsOf.mp hmem).1
    have hlt : row.targetEpoch < floor.2 := of_decide_eq_true hbelow
    have hraised := raiseWatermarkMax_raised t floor.1 .attestationSource (asU64 row.sourceEpoch)
    refine ⟨hraised.attestations ▸ h.rows, fun other => ?_⟩
    rw [Tables.floor_raise]
    split
    · next hsame =>
      have hset : (t.floor other).target = some floor.2 := hsame ▸ hwm
      have hfloor := h.floors other
      rw [hset] at hfloor
      dsimp only
      rw [hset, asI64_asU64 ⟨by omega, by omega⟩]
      exact hfloor.raise_source hsource (by omega)
    · exact h.floors other
  · exact h

theorem Tables.Exportable.foldl_raiseSourceBound {floors : List (String × Int)}
    (hfloors : ∀ floor ∈ floors, t.watermarks.lookup (floor.1, .attestationTarget) = some floor.2) :
    (floors.foldl Slashing.raiseSourceBound t).Exportable := by
  induction floors generalizing t with
  | nil => exact h
  | cons floor floors ih =>
    refine ih (h.raiseSourceBound (hfloors floor mem_cons_self)) fun other hother => ?_
    rw [raiseSourceBound_lookup t floor (by simp)]
    exact hfloors other (mem_cons_of_mem _ hother)

theorem Tables.Exportable.prune {t' : Tables} {stats : PruneStats}
    (hprune : pruneBelowWatermarks t = .ok (t', stats)) : t'.Exportable := by
  obtain ⟨-, hwm, hrows, -⟩ := prune_eq hprune
  have hraised := foldl_raiseSourceBound_raised (targetFloors t) t
  have hfloors : ∀ floor ∈ targetFloors t,
      t.watermarks.lookup (floor.1, .attestationTarget) = some floor.2 := fun _ => lookup_of_mem_targetFloors
  refine (h.foldl_raiseSourceBound hfloors).shrink ?_ hwm
  rw [hrows, hraised.attestations]
  exact filter_subset_self _

end

/-- The attestation has its source at most its target, and both below `2 ^ 63`. -/
def ParsedAttestation.Ordered (attestation : ParsedAttestation) : Prop :=
  attestation.sourceEpoch ≤ attestation.targetEpoch ∧ attestation.targetEpoch < 2 ^ 63

instance (attestation : ParsedAttestation) : Decidable attestation.Ordered := inferInstanceAs (Decidable (_ ∧ _))

theorem Tables.Exportable.insertParsedAttestation (h : t.Exportable) (gvrHex pubkey : String)
    {attestation : ParsedAttestation} (ha : attestation.Ordered) :
    (insertParsedAttestation gvrHex pubkey attestation t).Exportable := by
  unfold Slashing.insertParsedAttestation
  split
  · exact h
  · exact h.append (ordered_asI64 ha.1 ha.2)

theorem Tables.Exportable.insertParsedBlock (h : t.Exportable) (gvrHex pubkey : String) (block : ParsedBlock) :
    (insertParsedBlock gvrHex pubkey block t).Exportable := by
  unfold Slashing.insertParsedBlock
  split
  · exact h
  · exact h.shrink (fun _ hrow => hrow) rfl

theorem maxSource_le_maxTarget {attestations : List ParsedAttestation} (h : ∀ a ∈ attestations, a.Ordered)
    {source target : Nat} (hsource : (attestations.map (·.sourceEpoch)).max? = some source)
    (htarget : (attestations.map (·.targetEpoch)).max? = some target) : source ≤ target ∧ target < 2 ^ 63 := by
  obtain ⟨a, ha, rfl⟩ := mem_map.mp (List.max?_mem hsource)
  obtain ⟨b, hb, rfl⟩ := mem_map.mp (List.max?_mem htarget)
  have hmax := (List.max?_eq_some_iff.mp htarget).2 _ (mem_map_of_mem ha)
  exact ⟨(h a ha).1.trans hmax, (h b hb).2⟩

theorem Tables.Exportable.validatorStatements (h : t.Exportable) (gvrHex : String) {record : ValidatorRecord}
    {validator : ParsedValidator} (hparse : parseValidator record = .ok validator)
    (hordered : ∀ a ∈ validator.attestations, a.Ordered) :
    (applyAll (validatorStatements gvrHex validator) t).Exportable := by
  obtain ⟨-, -, -, hsource, htarget, -⟩ := parseValidator_ok hparse
  rw [Slashing.validatorStatements, applyAll_append, applyAll_append]
  have hattestations : (applyAll (validator.attestations.map
      (Slashing.insertParsedAttestation gvrHex validator.pubkey)) t).Exportable := by
    refine applyAll_invariant (P := Tables.Exportable) (fun statement hmem t ht => ?_) h
    obtain ⟨attestation, ha, rfl⟩ := mem_map.mp hmem
    exact ht.insertParsedAttestation gvrHex _ (hordered attestation ha)
  have hblocks : (applyAll (validator.blocks.map (Slashing.insertParsedBlock gvrHex validator.pubkey))
      (applyAll (validator.attestations.map (Slashing.insertParsedAttestation gvrHex validator.pubkey))
        t)).Exportable := by
    refine applyAll_invariant (P := Tables.Exportable) (fun statement hmem t ht => ?_) hattestations
    obtain ⟨block, -, rfl⟩ := mem_map.mp hmem
    exact ht.insertParsedBlock gvrHex _ block
  rw [watermarkStatements, applyAll_append]
  split
  · next source target hs ht =>
    obtain ⟨hle, hsmall⟩ := maxSource_le_maxTarget hordered (hsource ▸ hs) (htarget ▸ ht)
    refine Tables.Exportable.raise_pair ?_ validator.pubkey hle hsmall
    cases validator.maxSlot with
    | none => exact hblocks
    | some slot => exact hblocks.raise_block validator.pubkey slot
  · cases validator.maxSlot with
    | none => exact hblocks
    | some slot => exact hblocks.raise_block validator.pubkey slot

theorem Tables.Exportable.importStatements (h : t.Exportable) (gvrHex : String) {file : InterchangeFormat}
    {parsed : List ParsedValidator} (hparse : parseInterchange file = .ok parsed)
    (hordered : ∀ validator ∈ parsed, ∀ a ∈ validator.attestations, a.Ordered) :
    (applyAll (importStatements gvrHex parsed) t).Exportable := by
  refine applyAll_flatMap_invariant (P := Tables.Exportable) (fun validator hmem t ht => ?_) h
  obtain ⟨record, -, hrecord⟩ := exists_of_mem_mapM hparse hmem
  exact ht.validatorStatements gvrHex hrecord (hordered validator hmem)

end

/-! ### Runs -/

def ReservationKind.Ordered : ReservationKind → Prop
  | .block _ => True
  | .attestation source target => source ≤ target ∧ target < 2 ^ 63

/-- The call brings in attestations with source at most target and below `2 ^ 63` only, and sets no floor by
hand. -/
def Operation.Ordered : Operation → Prop
  | .reserve _ kind _ _ => kind.Ordered
  | .stage _ kind _ _ => kind.Ordered
  | .reconcile _ => True
  | .importFile file _ => ∀ parsed, parseInterchange file = .ok parsed → ∀ validator ∈ parsed,
      ∀ attestation ∈ validator.attestations, attestation.Ordered
  | .prune => True
  | .setBlockWatermark _ _ => False
  | .setAttestationWatermark _ _ _ => False

section

variable {db : SlashingDb} {t : Tables}

theorem Tables.Exportable.afterReserve (h : t.Exportable) {spec : ReserveSpec} (hkind : spec.kind.Ordered)
    (reservation : CommittedReservation) : (t.afterReserve spec reservation).Exportable := by
  unfold Tables.afterReserve Tables.withReserved
  split
  · cases hspec : spec.kind with
    | block slot => exact h.shrink (fun _ hrow => hrow) rfl
    | attestation source target =>
      rw [hspec] at hkind
      exact h.append (ordered_asI64 hkind.1 hkind.2)
  · exact h

theorem Tables.Exportable.run (h : t.Exportable) {operation : Operation} (hordered : operation.Ordered) :
    (operation.run db t).2.Exportable := by
  have heffect := operation.run_effect db t
  generalize (operation.run db t).2 = t' at heffect ⊢
  cases heffect with
  | unchanged => exact h
  | reserved | staged =>
    refine h.afterReserve ?_ _
    exact hordered
  | reconciled => exact h.shrink (filter_subset_self _) rfl
  | imported hparse => exact h.importStatements _ hparse (hordered _ hparse)
  | pruned hprune => exact h.prune hprune
  | blockRaised | attestationRaised => cases hordered

end

/-- **Every well-formed history can be exported**: from an empty database, whatever root is pinned, imports,
reserves, reconciles and prunes of attestations with source at most target never make a floor that no vote
can stand for. -/
theorem export_succeeds (db : SlashingDb) (pinned : Option String) (operations : List Operation)
    (hoperations : ∀ operation ∈ operations, operation.Ordered) (gvr : Root) :
    ∃ file, exportInterchange (Operation.runAll db { Tables.empty with metadataGvr := pinned } operations) gvr =
      .ok file := by
  have hreached : (Operation.runAll db { empty with metadataGvr := pinned } operations).Exportable :=
    Operation.runAll_invariant (fun operation hop _ ht => ht.run (hoperations operation hop)) (exportable_empty pinned)
  exact hreached.exportInterchange gvr

/-- One validator's file is imported, it votes twice above the floor `(3, 5)`, one vote is taken back, and the
database is pruned. -/
def votedAndPruned : List Operation :=
  [.importFile conflictingFile zeroRoot, .reserve "0xaa" (.attestation 4 8) (some "r1") zeroRoot,
    .reserve "0xaa" (.attestation 5 9) (some "r2") zeroRoot,
    .reconcile ⟨"0xaa", .attestation 5 9, some "r2", true⟩, .prune]

theorem votedAndPruned_ordered : ∀ operation ∈ votedAndPruned, operation.Ordered := by
  have hfile : Operation.Ordered (.importFile conflictingFile zeroRoot) := by
    intro parsed h
    cases conflictingFile_parsed.symm.trans h
    decide
  simp only [votedAndPruned, forall_mem_cons]
  exact ⟨hfile, ⟨by decide, by decide⟩, ⟨by decide, by decide⟩, trivial, trivial, forall_mem_nil _⟩

theorem export_succeeds_pruned : (Operation.runAll ⟨true, 0⟩ Tables.empty votedAndPruned).attestations.length = 2 ∧
      ∃ file, exportInterchange (Operation.runAll ⟨true, 0⟩ { Tables.empty with metadataGvr := none }
        votedAndPruned) zeroRoot = .ok file :=
  ⟨by decide +kernel, export_succeeds ⟨true, 0⟩ none votedAndPruned votedAndPruned_ordered zeroRoot⟩

end Rvc.Slashing
