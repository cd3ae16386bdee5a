import Rvc.Slashing.History
import Rvc.Slashing.Migration.Resolve

/-!
# The migration to schema version 3

Version 2 of the schema kept one row per `(client_cn, pubkey, target_epoch)` and per
`(client_cn, pubkey, slot)`; version 3 keeps one per `(pubkey, genesis_validators_root, _)`.
`migrateToV3` backfills the missing roots and resolves the duplicates of both tables.

`migrateToV3_refuses_iff` says which fresh votes the migrated database refuses: of a group with one target
only the row with the greatest source is left, so a vote that was surrounded by a row with a smaller source
may pass.
-/

namespace Rvc.Slashing

open Rvc.Lib List Function

/-! ### The steps -/

structure SchemaDb where
  attestations : List (Stored AttestationRow)
  blocks : List (Stored BlockRow)
  watermarks : Watermarks
  metadataGvr : Option String
  schemaVersion : Option Int

section

variable (db : SchemaDb)

def SchemaDb.tables : Tables :=
  ⟨db.attestations.map (·.row), db.blocks.map (·.row), db.watermarks, db.metadataGvr⟩

def safeHex (gvr : String) : String :=
  String.ofList (gvr.toList.filter fun c =>
    c.isDigit || ('a' ≤ c && c ≤ 'f') || ('A' ≤ c && c ≤ 'F') || c = 'x')

def SchemaDb.nullAttestations : Nat :=
  db.attestations.countP fun s => s.row.genesisValidatorsRoot.isNone

def SchemaDb.nullBlocks : Nat :=
  db.blocks.countP fun s => s.row.genesisValidatorsRoot.isNone

/-- `UPDATE … SET genesis_validators_root WHERE genesis_validators_root IS NULL`, on both tables. -/
def SchemaDb.fillGvr (gvr : String) : SchemaDb :=
  { db with
    attestations := db.attestations.map fun s =>
      { s with row := { s.row with genesisValidatorsRoot := s.row.genesisValidatorsRoot.or gvr } }
    blocks := db.blocks.map fun s =>
      { s with row := { s.row with genesisValidatorsRoot := s.row.genesisValidatorsRoot.or gvr } } }

def backfillGvr : Except SlashingError SchemaDb :=
  if db.nullAttestations = 0 ∧ db.nullBlocks = 0 then
    .ok db
  else
    match db.metadataGvr with
    | none => .error (.migrationFailed
        (s!"v3 migration: {db.nullAttestations} attestation and {db.nullBlocks} block rows have NULL " ++
          "genesis_validators_root, but no genesis_validators_root is pinned in metadata. " ++
          "Cannot create pubkey+gvr unique index safely. Pin genesis_validators_root first."))
    | some gvrHex => .ok (db.fillGvr (safeHex gvrHex))

def runV3Steps : Except SlashingError SchemaDb := do
  let db ← backfillGvr db
  let blocks ← resolveDuplicateBlocks db.blocks
  let attestations ← resolveDuplicateAttestations db.attestations
  createScopedIndex attestationPolicy attestations
  createScopedIndex blockPolicy blocks
  .ok { db with blocks := blocks, attestations := attestations, schemaVersion := some 3 }

/-- `migrate_to_v3`: the file afterwards, and the result. A failed run rolls back. -/
def migrateToV3 : SchemaDb × Except SlashingError Unit :=
  if 3 ≤ db.schemaVersion.getD 0 then
    (db, .ok ())
  else
    match runV3Steps db with
    | .ok db' => (db', .ok ())
    | .error e => (db, .error e)

end

/-! ### The whole migration -/

instance {ρ : Type} (rows : List (Stored ρ)) : Decidable (UniqueIds rows) :=
  inferInstanceAs (Decidable (List.Nodup _))

instance {ρ β : Type} (policy : TablePolicy ρ β) (rows : List (Stored ρ)) :
    Decidable (policy.UniqueCns rows) :=
  inferInstanceAs (Decidable (List.Nodup _))

/-- A version 2 database: primary keys and the CN-scoped indices. -/
structure SchemaDb.IsV2 (db : SchemaDb) : Prop where
  version : db.schemaVersion = some 2
  attestationIds : UniqueIds db.attestations
  blockIds : UniqueIds db.blocks
  attestationCns : attestationPolicy.UniqueCns db.attestations
  blockCns : blockPolicy.UniqueCns db.blocks

def SchemaDb.gvrAfter (db : SchemaDb) (gvr : Option String) : Option String :=
  gvr.or (db.metadataGvr.map safeHex)

def SchemaDb.filledAttestation (db : SchemaDb) (s : Stored AttestationRow) : Stored AttestationRow :=
  { s with row := { s.row with genesisValidatorsRoot := db.gvrAfter s.row.genesisValidatorsRoot } }

def SchemaDb.filledBlock (db : SchemaDb) (s : Stored BlockRow) : Stored BlockRow :=
  { s with row := { s.row with genesisValidatorsRoot := db.gvrAfter s.row.genesisValidatorsRoot } }

theorem SchemaDb.gvrAfter_of_isSome (db : SchemaDb) {gvr : Option String} (h : ¬ gvr.isNone) :
    db.gvrAfter gvr = gvr := by
  cases gvr with
  | none => simp at h
  | some _ => rfl

def SchemaDb.filled (db : SchemaDb) : SchemaDb :=
  { db with
    attestations := db.attestations.map db.filledAttestation
    blocks := db.blocks.map db.filledBlock }

variable {db : SchemaDb}

open SchemaDb

theorem SchemaDb.IsV2.filled (h : db.IsV2) : db.filled.IsV2 where
  version := h.version
  attestationIds := by
    simpa [UniqueIds, comp_def, SchemaDb.filled, SchemaDb.filledAttestation] using h.attestationIds
  blockIds := by
    simpa [UniqueIds, comp_def, SchemaDb.filled, SchemaDb.filledBlock] using h.blockIds
  attestationCns := by
    simpa [TablePolicy.UniqueCns, TablePolicy.cnKey, comp_def, SchemaDb.filled,
      SchemaDb.filledAttestation, attestationPolicy] using h.attestationCns
  blockCns := by
    simpa [TablePolicy.UniqueCns, TablePolicy.cnKey, comp_def, SchemaDb.filled,
      SchemaDb.filledBlock, blockPolicy] using h.blockCns

theorem backfillGvr_ok {db₁ : SchemaDb} (h : backfillGvr db = .ok db₁) : db₁ = db.filled := by
  unfold backfillGvr at h
  split at h
  case isTrue hnone =>
    cases h
    have hatts : db.attestations.map db.filledAttestation = db.attestations := by
      refine (map_congr_left fun s hs => ?_).trans (map_id _)
      rw [filledAttestation, db.gvrAfter_of_isSome (countP_eq_zero.mp hnone.1 s hs), id]
    have hblocks : db.blocks.map db.filledBlock = db.blocks := by
      refine (map_congr_left fun s hs => ?_).trans (map_id _)
      rw [filledBlock, db.gvrAfter_of_isSome (countP_eq_zero.mp hnone.2 s hs), id]
    rw [filled, hatts, hblocks]
  case isFalse =>
    cases hgvr : db.metadataGvr with
    | none => rw [hgvr] at h; cases h
    | some gvrHex =>
      rw [hgvr] at h
      cases h
      have hafter : ∀ gvr, db.gvrAfter gvr = gvr.or (safeHex gvrHex) := by
        intro gvr
        rw [gvrAfter, hgvr, Option.map_some]
      rw [fillGvr, filled]
      congr 1
      · exact map_congr_left fun s _ => by rw [filledAttestation, hafter]
      · exact map_congr_left fun s _ => by rw [filledBlock, hafter]

/-- What a migrated database owes to the one it came from: both tables thinned, one row per group of
attestations, the watermarks as they were. -/
structure MigratedFrom (db db' : SchemaDb) : Prop where
  attestations : Condenses attestationPolicy.Same (fun s => attestationPolicy.scope s.row)
    (fun y x => x.row.sourceEpoch ≤ y.row.sourceEpoch) db.filled.attestations db'.attestations
  attestationScopes : (db'.attestations.map fun s => attestationPolicy.scope s.row).Nodup
  blocks : Condenses blockPolicy.Same (fun s => blockPolicy.scope s.row) (fun _ _ => True) db.filled.blocks db'.blocks
  watermarks : db'.watermarks = db.watermarks

theorem createScopedIndex_ok {ρ β : Type} {policy : TablePolicy ρ β} {rows : List (Stored ρ)}
    (h : createScopedIndex policy rows = .ok ()) : (rows.map fun s => policy.scope s.row).Nodup := by
  unfold createScopedIndex at h
  split at h
  · assumption
  · cases h

theorem attestationPolicy_rank {a b : AttestationRow}
    (h : attestationPolicy.rank a ≤ attestationPolicy.rank b) : b.sourceEpoch ≤ a.sourceEpoch := by
  rcases Prod.Lex.toLex_le_toLex.mp h with hlt | ⟨heq, -⟩
  · exact (OrderDual.toDual_lt_toDual.mp hlt).le
  · exact (OrderDual.toDual_inj.mp heq).ge

theorem SchemaDb.IsV2.runV3Steps_eq (hv2 : db.IsV2) : migrateToV3 db = match runV3Steps db with
      | .ok db' => (db', .ok ())
      | .error e => (db, .error e) := by
  have : ¬ (3 ≤ (2 : Int)) := by decide
  rw [migrateToV3, hv2.version, Option.getD_some, if_neg this]

theorem migrateToV3_spec {db' : SchemaDb} (hv2 : db.IsV2) (h : migrateToV3 db = (db', .ok ())) :
    MigratedFrom db db' := by
  rw [hv2.runV3Steps_eq] at h
  cases hrun : runV3Steps db with
  | error e => rw [hrun] at h; cases h
  | ok result =>
    rw [hrun] at h
    obtain rfl := (Prod.mk.inj h).1
    obtain ⟨db₁, hfill, hrest⟩ := bind_eq_ok.mp hrun
    obtain rfl := backfillGvr_ok hfill
    obtain ⟨blocks, hblocks, hrest⟩ := bind_eq_ok.mp hrest
    obtain ⟨attestations, hatts, hrest⟩ := bind_eq_ok.mp hrest
    obtain ⟨_, hindex, hrest⟩ := bind_eq_ok.mp hrest
    obtain ⟨_, -, hrest⟩ := bind_eq_ok.mp hrest
    cases hrest
    refine ⟨?_, createScopedIndex_ok hindex, ?_, rfl⟩
    · exact resolveDuplicates_condenses (fun y x => x.sourceEpoch ≤ y.sourceEpoch)
        (fun _ _ => attestationPolicy_rank) (fun _ _ _ h => h) (fun h₁ h₂ => h₂.trans h₁)
        hv2.filled.attestationIds hatts
    · exact resolveDuplicates_condenses (fun _ _ => True) (fun _ _ _ => trivial)
        (fun _ _ _ _ => trivial) (fun _ _ => trivial) hv2.filled.blockIds hblocks

/-! ### Protection across the migration -/

def SchemaDb.attestationGroup (db : SchemaDb) (row : AttestationRow) : String × Option String × Int :=
  (row.pubkey, db.gvrAfter row.genesisValidatorsRoot, row.targetEpoch)

section

variable {db' : SchemaDb}

section

variable (h : MigratedFrom db db')

include h

theorem MigratedFrom.attestation_from {s' : Stored AttestationRow} (hs' : s' ∈ db'.attestations) :
    ∃ s ∈ db.attestations, attestationPolicy.scope s'.row = db.attestationGroup s.row ∧
      s'.row.vote = s.row.vote ∧ s'.row.signingRoot = s.row.signingRoot := by
  obtain ⟨x, hx, -, cn, hrow⟩ := h.attestations.sound s' hs'
  obtain ⟨s, hs, rfl⟩ := mem_map.mp hx
  exact ⟨s, hs, by rw [hrow]; rfl, by rw [hrow]; rfl, by rw [hrow]; rfl⟩

theorem MigratedFrom.attestation_kept {s : Stored AttestationRow} (hs : s ∈ db.attestations) :
    ∃ s' ∈ db'.attestations, attestationPolicy.scope s'.row = db.attestationGroup s.row ∧
      s.row.sourceEpoch ≤ s'.row.sourceEpoch := by
  obtain ⟨s', hs', hscope, hle⟩ := h.attestations.complete _ (mem_map_of_mem hs)
  exact ⟨s', hs', hscope, hle⟩

theorem MigratedFrom.attestation_best {s' : Stored AttestationRow}
    (hs' : s' ∈ db'.attestations) {s : Stored AttestationRow} (hs : s ∈ db.attestations)
    (hgroup : db.attestationGroup s.row = attestationPolicy.scope s'.row) : s.row.sourceEpoch ≤ s'.row.sourceEpoch :=
  h.attestations.best h.attestationScopes hs' (db.filledAttestation s) (mem_map_of_mem hs) hgroup

theorem MigratedFrom.block_from {s' : Stored BlockRow}
    (hs' : s' ∈ db'.blocks) : ∃ s ∈ db.blocks, s'.row.signingRoot = s.row.signingRoot := by
  obtain ⟨x, hx, -, cn, hrow⟩ := h.blocks.sound s' hs'
  obtain ⟨s, hs, rfl⟩ := mem_map.mp hx
  exact ⟨s, hs, by rw [hrow]; rfl⟩

theorem MigratedFrom.block_kept {s : Stored BlockRow} (hs : s ∈ db.blocks) :
    ∃ s' ∈ db'.blocks, s'.row.pubkey = s.row.pubkey ∧ s'.row.slot = s.row.slot := by
  obtain ⟨s', hs', hscope, -⟩ := h.blocks.complete _ (mem_map_of_mem hs)
  exact ⟨s', hs', congrArg (·.1) hscope, congrArg (·.2.2) hscope⟩

theorem MigratedFrom.freshRoot {root : String} (hfresh : db.tables.FreshRoot root) : db'.tables.FreshRoot root := by
  refine ⟨fun row hrow => ?_, fun row hrow => ?_⟩
  · obtain ⟨s', hs', rfl⟩ := mem_map.mp hrow
    obtain ⟨s, hs, -, -, hroot⟩ := h.attestation_from hs'
    exact hroot ▸ hfresh.1 _ (mem_map_of_mem hs)
  · obtain ⟨s', hs', rfl⟩ := mem_map.mp hrow
    obtain ⟨s, hs, hroot⟩ := h.block_from hs'
    exact hroot ▸ hfresh.2 _ (mem_map_of_mem hs)

end

end

/-- What of the database before the migration stands against a vote with a new root after it. A
surrounding row counts only where every row of its group surrounds the vote. -/
inductive SchemaDb.RefusesAfterV3 (db : SchemaDb) (pubkey : String) (candidate : AttestationCandidate) :
    Prop
  | floor (h : ¬ (db.tables.attestationWatermarks pubkey).Admits candidate)
  | double {s : Stored AttestationRow} (hs : s ∈ db.attestations) (hpk : s.row.pubkey = pubkey)
      (htarget : s.row.targetEpoch = candidate.vote.target)
  | surrounding {s : Stored AttestationRow} (hs : s ∈ db.attestations) (hpk : s.row.pubkey = pubkey)
      (hsurrounds : candidate.vote.Surrounds s.row.vote)
  | surrounded {s : Stored AttestationRow} (hs : s ∈ db.attestations) (hpk : s.row.pubkey = pubkey)
      (hgroup : ∀ other ∈ db.attestations, db.attestationGroup other.row = db.attestationGroup s.row →
          other.row.vote.Surrounds candidate.vote)
  | minimum {s : Stored AttestationRow} (hs : s ∈ db.attestations) (hpk : s.row.pubkey = pubkey)
      (hmin : ∀ other ∈ db.attestations, other.row.pubkey = pubkey →
        s.row.targetEpoch ≤ other.row.targetEpoch)
      (hlt : candidate.targetEpoch < asU64 s.row.targetEpoch)

theorem MigratedFrom.refusesFresh_iff {db' : SchemaDb} (h : MigratedFrom db db') (pubkey : String)
    (candidate : AttestationCandidate) :
    db'.tables.RefusesFresh pubkey candidate ↔ db.RefusesAfterV3 pubkey candidate := by
  have hfloor : db'.tables.attestationWatermarks pubkey = db.tables.attestationWatermarks pubkey := by
    simp only [Tables.attestationWatermarks, readWatermark, tables, h.watermarks]
  constructor
  · intro href
    cases href with
    | floor hnot => exact .floor (hfloor ▸ hnot)
    | double hrow hpk htarget =>
      obtain ⟨s', hs', rfl⟩ := mem_map.mp hrow
      obtain ⟨s, hs, hscope, hvote, -⟩ := h.attestation_from hs'
      exact .double hs ((congrArg (·.1) hscope).symm.trans hpk) ((congrArg Vote.target hvote).symm.trans htarget)
    | surrounding hrow hpk hsurrounds =>
      obtain ⟨s', hs', rfl⟩ := mem_map.mp hrow
      obtain ⟨s, hs, hscope, hvote, -⟩ := h.attestation_from hs'
      exact .surrounding hs ((congrArg (·.1) hscope).symm.trans hpk) (hvote ▸ hsurrounds)
    | surrounded hrow hpk hsurrounds =>
      obtain ⟨s', hs', rfl⟩ := mem_map.mp hrow
      obtain ⟨s, hs, hscope, hvote, -⟩ := h.attestation_from hs'
      refine .surrounded hs ((congrArg (·.1) hscope).symm.trans hpk) fun other hother hgroup => ?_
      have hle := h.attestation_best hs' hother (hgroup.trans hscope.symm)
      have htarget : other.row.targetEpoch = s'.row.targetEpoch :=
        congrArg (·.2.2) (hgroup.trans hscope.symm)
      exact ⟨lt_of_le_of_lt hle hsurrounds.1, lt_of_lt_of_eq hsurrounds.2 htarget.symm⟩
    | minimum hrow hpk hmin hlt =>
      obtain ⟨s', hs', rfl⟩ := mem_map.mp hrow
      obtain ⟨s, hs, hscope, hvote, -⟩ := h.attestation_from hs'
      have htarget : s'.row.targetEpoch = s.row.targetEpoch := congrArg (·.2.2) hscope
      refine .minimum hs ((congrArg (·.1) hscope).symm.trans hpk) (fun other hother hopk => ?_) (htarget ▸ hlt)
      obtain ⟨o', ho', hoscope, -⟩ := h.attestation_kept hother
      have hle := hmin o'.row (mem_map_of_mem ho') ((congrArg (·.1) hoscope).trans hopk)
      rw [← htarget]
      exact hle.trans_eq (congrArg (·.2.2) hoscope)
  · intro href
    cases href with
    | floor hnot => exact .floor (hfloor ▸ hnot)
    | double hs hpk htarget =>
      obtain ⟨s', hs', hscope, -⟩ := h.attestation_kept hs
      exact .double (mem_map_of_mem hs') ((congrArg (·.1) hscope).trans hpk) ((congrArg (·.2.2) hscope).trans htarget)
    | surrounding hs hpk hsurrounds =>
      -- the row that is left has at least the source of the one that was surrounded
      obtain ⟨s', hs', hscope, hle⟩ := h.attestation_kept hs
      exact .surrounding (mem_map_of_mem hs') ((congrArg (·.1) hscope).trans hpk)
        ⟨lt_of_lt_of_le hsurrounds.1 hle, lt_of_eq_of_lt (congrArg (·.2.2) hscope) hsurrounds.2⟩
    | surrounded hs hpk hgroup =>
      obtain ⟨s', hs', hscope, -⟩ := h.attestation_kept hs
      obtain ⟨o, ho, hoscope, hovote, -⟩ := h.attestation_from hs'
      exact .surrounded (mem_map_of_mem hs') ((congrArg (·.1) hscope).trans hpk)
        (hovote ▸ hgroup o ho (hoscope.symm.trans hscope))
    | minimum hs hpk hmin hlt =>
      obtain ⟨s', hs', hscope, -⟩ := h.attestation_kept hs
      have htarget : s'.row.targetEpoch = _ := congrArg (·.2.2) hscope
      refine .minimum (mem_map_of_mem hs') ((congrArg (·.1) hscope).trans hpk)
        (fun other hother hopk => ?_) (htarget ▸ hlt)
      obtain ⟨o', ho', rfl⟩ := mem_map.mp hother
      obtain ⟨o, ho, hoscope, -, -⟩ := h.attestation_from ho'
      have hle := hmin o ho ((congrArg (·.1) hoscope).symm.trans hopk)
      rw [htarget]
      exact hle.trans_eq (congrArg (·.2.2) hoscope).symm

/-- **Protection after the migration**: a vote with a new root is refused exactly when
`SchemaDb.RefusesAfterV3` says so, and a block with a new root at a slot that had a row always is. -/
theorem migrateToV3_refuses_iff {db db' : SchemaDb} (hv2 : db.IsV2) (h : migrateToV3 db = (db', .ok ())) :
    (∀ pubkey candidate root strict, candidate.signingRoot = some root → db.tables.FreshRoot root →
      ((∃ e, db'.tables.checkAttestation pubkey candidate strict = .error e) ↔ db.RefusesAfterV3 pubkey candidate)) ∧
    ∀ pubkey candidate root strict, candidate.signingRoot = some root → db.tables.FreshRoot root →
      (∃ s ∈ db.blocks, s.row.pubkey = pubkey ∧ s.row.slot = asI64 candidate.slot) →
      ∃ e, db'.tables.checkBlock pubkey candidate strict = .error e := by
  have hspec := migrateToV3_spec hv2 h
  constructor
  · intro pubkey candidate root strict hroot hfresh
    rw [Tables.checkAttestation_fresh strict hroot (hspec.freshRoot hfresh)]
    exact hspec.refusesFresh_iff pubkey candidate
  · rintro pubkey candidate root strict hroot hfresh ⟨s, hs, hpk, hslot⟩
    obtain ⟨s', hs', hpk', hslot'⟩ := hspec.block_kept hs
    exact Tables.checkBlock_fresh strict hroot (hspec.freshRoot hfresh) (mem_map_of_mem hs')
      (hpk'.trans hpk) (hslot'.trans hslot)

/-- One validator whose two clients voted for target 10 from the sources 2 and 8, over an older vote. -/
def twoClientsDb : SchemaDb where
  attestations :=
    [⟨1, ⟨"cn-a", "0xaa", 0, 1, some "0x01", some "0x07"⟩, 0⟩,
      ⟨2, ⟨"cn-a", "0xaa", 2, 10, some "0x02", some "0x07"⟩, 0⟩,
      ⟨3, ⟨"cn-b", "0xaa", 8, 10, some "0x03", some "0x07"⟩, 0⟩]
  blocks := []
  watermarks := ∅
  metadataGvr := none
  schemaVersion := some 2

theorem twoClientsDb_isV2 : twoClientsDb.IsV2 :=
  ⟨rfl, by decide, by decide, by decide, by decide⟩

theorem twoClientsDb_migrated : migrateToV3 twoClientsDb = ((migrateToV3 twoClientsDb).1, .ok ()) := by
  have : (migrateToV3 twoClientsDb).2 = .ok () := by decide
  rw [← this]

theorem migrateToV3_refuses_iff_twoClients :
    (∃ e, (migrateToV3 twoClientsDb).1.tables.checkAttestation "0xaa" ⟨5, 10, some "0x09"⟩ true =
      .error e) ↔ twoClientsDb.RefusesAfterV3 "0xaa" ⟨5, 10, some "0x09"⟩ :=
  (migrateToV3_refuses_iff twoClientsDb_isV2 twoClientsDb_migrated).1 "0xaa" ⟨5, 10, some "0x09"⟩ "0x09"
    true rfl ⟨by decide, by decide⟩

/-- The vote from 5 to 9 is surrounded by the row from 2 to 10. It is refused before the migration and
accepted after it: the row from 8 to 10 was kept. -/
theorem migrateToV3_loses_surrounded : twoClientsDb.IsV2 ∧ twoClientsDb.tables.FreshRoot "0x09" ∧
      (∃ s ∈ twoClientsDb.attestations, s.row.pubkey = "0xaa" ∧
        s.row.vote.Surrounds (AttestationCandidate.vote ⟨5, 9, some "0x09"⟩)) ∧
      twoClientsDb.tables.checkAttestation "0xaa" ⟨5, 9, some "0x09"⟩ true =
        .error (.slashableAttestation (.surroundedVote 5 9 2 10)) ∧ (migrateToV3 twoClientsDb).2 = .ok () ∧
      (migrateToV3 twoClientsDb).1.tables.checkAttestation "0xaa" ⟨5, 9, some "0x09"⟩ true = .ok .stage :=
  ⟨twoClientsDb_isV2, ⟨by decide, by decide⟩, by decide, by decide, by decide, by decide⟩

end Rvc.Slashing
