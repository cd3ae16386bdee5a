import Mathlib.Data.List.Dedup
import Mathlib.Data.List.Sort
import Rvc.Slashing.Interchange.Wire
import Rvc.Slashing.Watermarks

/-!
# Export

`SlashingDb::export`. A validator with both attestation watermarks has its rows up to a bound `T*` replaced by
one synthetic attestation `(S*, T*)`. The pair is the fixed point of `syntheticLoop`: `S*` is over every
source at or below `T*`, and no row above `T*` has a source below `S*` (`syntheticLoop_spec`).
-/

namespace Rvc.Slashing

open Rvc.Lib Rvc.EthTypes Rvc.Observability List

/-! ### The synthetic bounds -/

/-- The first inner loop: the largest source among rows up to the target bound, at least the watermark. -/
def sourceBound (rows : List (Nat × Nat)) (sourceWm targetBound : Nat) : Nat :=
  rows.foldl (fun bound row => if row.2 ≤ targetBound then max bound row.1 else bound) sourceWm

/-- The second inner loop: the largest target above the bound with a source below the source bound. -/
def raisedTarget (rows : List (Nat × Nat)) (sourceBound targetBound : Nat) : Option Nat :=
  ((rows.filter fun row => targetBound < row.2 ∧ row.1 < sourceBound).map (·.2)).max?

variable {rows : List (Nat × Nat)}

theorem raisedTarget_some {sourceBound targetBound next : Nat}
    (h : raisedTarget rows sourceBound targetBound = some next) :
    ∃ row ∈ rows, targetBound < row.2 ∧ row.2 = next := by
  obtain ⟨row, hrow, rfl⟩ := mem_map.mp (List.max?_mem h)
  have hmem := mem_filter.mp hrow
  exact ⟨row, hmem.1, (by simpa using hmem.2 : _ ∧ _).1, rfl⟩

theorem raisedTarget_none {sourceBound targetBound : Nat} (h : raisedTarget rows sourceBound targetBound = none) :
    ∀ row ∈ rows, targetBound < row.2 → sourceBound ≤ row.1 := by
  intro row hrow hlt
  rw [raisedTarget, List.max?_eq_none_iff, map_eq_nil_iff, filter_eq_nil_iff] at h
  have hnot := h row hrow
  simp only [decide_eq_true_eq, not_and, Nat.not_lt] at hnot
  exact hnot hlt

theorem length_above_lt {bound : Nat} {row : Nat × Nat} (hrow : row ∈ rows) (hlt : bound < row.2) :
    (rows.filter fun r => row.2 < r.2).length < (rows.filter fun r => bound < r.2).length := by
  have hsub : (rows.filter fun r => row.2 < r.2) =
      (rows.filter fun r => bound < r.2).filter fun r => row.2 < r.2 := by
    rw [filter_filter]
    refine filter_congr fun r _ => ?_
    rw [← Bool.decide_and]
    exact decide_eq_decide.mpr (by omega)
  rw [hsub]
  refine length_filter_lt_length_iff_exists.mpr ⟨row, ?_, by simp⟩
  exact mem_filter.mpr ⟨hrow, by simpa using hlt⟩

/-- The outer loop: raise the target bound until no row above it undercuts the source bound. -/
def syntheticLoop (rows : List (Nat × Nat)) (sourceWm targetBound : Nat) : Nat × Nat :=
  match _h : raisedTarget rows (sourceBound rows sourceWm targetBound) targetBound with
  | some next => syntheticLoop rows sourceWm next
  | none => (sourceBound rows sourceWm targetBound, targetBound)
termination_by (rows.filter fun row => targetBound < row.2).length
decreasing_by
  obtain ⟨row, hrow, hlt, rfl⟩ := raisedTarget_some _h
  exact length_above_lt hrow hlt

/-- `attestation_synthetic_bounds`: the fixed point, as an error when its source is past its target. -/
def attestationSyntheticBounds (rows : List (Nat × Nat)) (sourceWm targetWm : Nat) : Except (Nat × Nat) (Nat × Nat) :=
  if (syntheticLoop rows sourceWm targetWm).1 > (syntheticLoop rows sourceWm targetWm).2 then
    .error (syntheticLoop rows sourceWm targetWm)
  else
    .ok (syntheticLoop rows sourceWm targetWm)

example : attestationSyntheticBounds [(1, 2), (0, 5), (4, 5), (3, 8)] 1 4 = .ok (4, 8) := by
  decide +kernel

theorem sourceBound_spec (rows : List (Nat × Nat)) (sourceWm targetBound : Nat) :
    sourceWm ≤ sourceBound rows sourceWm targetBound ∧
      (∀ row ∈ rows, row.2 ≤ targetBound → row.1 ≤ sourceBound rows sourceWm targetBound) ∧
      (sourceBound rows sourceWm targetBound = sourceWm ∨
        ∃ row ∈ rows, sourceBound rows sourceWm targetBound = row.1) := by
  unfold sourceBound
  induction rows generalizing sourceWm with
  | nil => exact ⟨le_rfl, by simp, .inl rfl⟩
  | cons row rows ih =>
    rw [foldl_cons]
    split
    · next hle =>
      obtain ⟨hwm, hrows, heq⟩ := ih (max sourceWm row.1)
      refine ⟨(le_max_left _ _).trans hwm, ?_, ?_⟩
      · rintro r (_ | ⟨_, hr⟩) hrt
        · exact (le_max_right _ _).trans hwm
        · exact hrows r hr hrt
      · rcases heq with heq | ⟨r, hr, heq⟩
        · rcases le_total sourceWm row.1 with h | h
          · exact .inr ⟨row, by simp, by rw [heq, max_eq_right h]⟩
          · exact .inl (by rw [heq, max_eq_left h])
        · exact .inr ⟨r, mem_cons_of_mem _ hr, heq⟩
    · next hgt =>
      obtain ⟨hwm, hrows, heq⟩ := ih sourceWm
      refine ⟨hwm, ?_, heq.imp id fun ⟨r, hr, heq⟩ => ⟨r, mem_cons_of_mem _ hr, heq⟩⟩
      rintro r (_ | ⟨_, hr⟩) hrt
      · exact absurd hrt hgt
      · exact hrows r hr hrt

structure SyntheticBounds (rows : List (Nat × Nat)) (sourceWm targetWm : Nat) (bounds : Nat × Nat) :
    Prop where
  sourceWm_le : sourceWm ≤ bounds.1
  targetWm_le : targetWm ≤ bounds.2
  below : ∀ row ∈ rows, row.2 ≤ bounds.2 → row.1 ≤ bounds.1
  above : ∀ row ∈ rows, bounds.2 < row.2 → bounds.1 ≤ row.1
  source_mem : bounds.1 = sourceWm ∨ ∃ row ∈ rows, bounds.1 = row.1
  target_mem : bounds.2 = targetWm ∨ ∃ row ∈ rows, bounds.2 = row.2

theorem syntheticLoop_spec (rows : List (Nat × Nat)) (sourceWm targetWm : Nat) :
    SyntheticBounds rows sourceWm targetWm (syntheticLoop rows sourceWm targetWm) := by
  induction targetWm using syntheticLoop.induct rows sourceWm with
  | case1 bound next hnext ih =>
    obtain ⟨row, hrow, hlt, rfl⟩ := raisedTarget_some hnext
    have hloop : syntheticLoop rows sourceWm bound = syntheticLoop rows sourceWm row.2 := by
      rw [syntheticLoop]
      split <;> simp_all
    rw [hloop]
    exact { ih with
      targetWm_le := hlt.le.trans ih.targetWm_le
      target_mem := .inr (ih.target_mem.elim (fun h => ⟨row, hrow, h⟩) id) }
  | case2 bound hnone =>
    have hloop : syntheticLoop rows sourceWm bound = (sourceBound rows sourceWm bound, bound) := by
      rw [syntheticLoop]
      split <;> simp_all
    rw [hloop]
    obtain ⟨hwm, hbelow, hmem⟩ := sourceBound_spec rows sourceWm bound
    exact ⟨hwm, le_rfl, hbelow, raisedTarget_none hnone, hmem, .inl rfl⟩

/-! ### Exporting -/

structure SignedAttestation where
  pubkey : String
  sourceEpoch : Nat
  targetEpoch : Nat
  signingRoot : Option String
  deriving DecidableEq

structure SignedBlock where
  pubkey : String
  slot : Nat
  signingRoot : Option String
  deriving DecidableEq

def AttestationRow.toSigned (row : AttestationRow) : SignedAttestation :=
  ⟨row.pubkey, asU64 row.sourceEpoch, asU64 row.targetEpoch, row.signingRoot⟩

def BlockRow.toSigned (row : BlockRow) : SignedBlock := ⟨row.pubkey, asU64 row.slot, row.signingRoot⟩

section

variable (t : Tables) (pubkey : String)

def readAttestations : List SignedAttestation :=
  ((t.attestationsOf pubkey).insertionSort fun a b => a.targetEpoch ≤ b.targetEpoch).map (·.toSigned)

def readBlocks : List SignedBlock :=
  ((t.blocksOf pubkey).insertionSort fun a b => a.slot ≤ b.slot).map (·.toSigned)

/-- `read_all_pubkeys`: the union of the three tables, each pubkey once. -/
def readAllPubkeys : List String :=
  (t.attestations.map (·.pubkey) ++ t.blocks.map (·.pubkey) ++ t.watermarks.keys.map (·.1)).dedup

def wireAttestation (attestation : SignedAttestation) : InterchangeAttestation :=
  ⟨toString attestation.sourceEpoch, toString attestation.targetEpoch, attestation.signingRoot⟩

def wireBlock (block : SignedBlock) : InterchangeBlock := ⟨toString block.slot, block.signingRoot⟩

/-- The `(source, target)` pairs the bounds are computed from. -/
def exportRows : List (Nat × Nat) :=
  (readAttestations t pubkey).map fun a => (a.sourceEpoch, a.targetEpoch)

/-- The attestation half of `export_validator`: the synthetic record, if any, and the copied rows. -/
def exportAttestations : Except SlashingError (Option InterchangeAttestation × List InterchangeAttestation) :=
  match readWatermark t pubkey .attestationSource, readWatermark t pubkey .attestationTarget with
  | none, none => .ok (none, (readAttestations t pubkey).map wireAttestation)
  | some sourceWm, some targetWm =>
      match attestationSyntheticBounds (exportRows t pubkey) sourceWm targetWm with
      | .ok (source, target) =>
          .ok (some ⟨toString source, toString target, none⟩,
            ((readAttestations t pubkey).filter fun a => target < a.targetEpoch).map wireAttestation)
      | .error (source, target) => .error (.unrepresentableFloor pubkey source target)
  | sourceWm, targetWm =>
      .error (.unrepresentableFloor pubkey (sourceWm.getD 0) (targetWm.getD 0))

def exportBlocks : Option InterchangeBlock × List InterchangeBlock :=
  match readWatermark t pubkey .block with
  | some slotWm =>
      (some ⟨toString slotWm, none⟩, ((readBlocks t pubkey).filter fun b => slotWm < b.slot).map wireBlock)
  | none => (none, (readBlocks t pubkey).map wireBlock)

/-- `export_validator`: the record, and how many of its entries are synthetic. -/
def exportValidator : Except SlashingError (ValidatorRecord × Nat) := do
  let attestations ← exportAttestations t pubkey
  let blocks := exportBlocks t pubkey
  .ok (⟨pubkey, blocks.1.toList ++ blocks.2, attestations.1.toList ++ attestations.2⟩,
    attestations.1.toList.length + blocks.1.toList.length)

def exportInterchange (gvr : Root) : Except SlashingError InterchangeFormat := do
  let data ← (readAllPubkeys t).mapM (exportValidator t)
  .ok ⟨⟨"5", rootToHex gvr⟩, data.map (·.1)⟩

end

/-! ### What an exported record holds -/

variable {pubkey : String} {t : Tables}

theorem mem_readAttestations {a : SignedAttestation} : a ∈ readAttestations t pubkey ↔
      ∃ row ∈ t.attestations, row.pubkey = pubkey ∧ row.toSigned = a := by
  simp [readAttestations, mem_insertionSort, and_assoc]

theorem mem_readBlocks {b : SignedBlock} :
    b ∈ readBlocks t pubkey ↔ ∃ row ∈ t.blocks, row.pubkey = pubkey ∧ row.toSigned = b := by
  simp [readBlocks, mem_insertionSort, and_assoc]

theorem exists_readAttestations {P : SignedAttestation → Prop} : (∃ a, a ∈ readAttestations t pubkey ∧ P a) ↔
      ∃ row ∈ t.attestations, row.pubkey = pubkey ∧ P row.toSigned := by
  simp [readAttestations, mem_insertionSort, and_assoc]

theorem exists_readBlocks {P : SignedBlock → Prop} : (∃ b, b ∈ readBlocks t pubkey ∧ P b) ↔
      ∃ row ∈ t.blocks, row.pubkey = pubkey ∧ P row.toSigned := by
  simp [readBlocks, mem_insertionSort, and_assoc]

theorem mem_readAllPubkeys : pubkey ∈ readAllPubkeys t ↔ (∃ row ∈ t.attestations, row.pubkey = pubkey) ∨
      (∃ row ∈ t.blocks, row.pubkey = pubkey) ∨
      ∃ kind wm, t.watermarks.lookup (pubkey, kind) = some wm := by
  have hkeys : pubkey ∈ t.watermarks.keys.map (·.1) ↔
      ∃ kind wm, t.watermarks.lookup (pubkey, kind) = some wm := by
    constructor
    · intro h
      obtain ⟨⟨key, kind⟩, hkey, rfl⟩ := mem_map.mp h
      exact ⟨kind, Option.isSome_iff_exists.mp (AList.lookup_isSome.mpr hkey)⟩
    · rintro ⟨kind, wm, hwm⟩
      exact mem_map.mpr ⟨(pubkey, kind), AList.lookup_isSome.mp (by simp [hwm]), rfl⟩
  simp only [readAllPubkeys, mem_dedup, mem_append, hkeys, mem_map, or_assoc]

def AttestationRow.toParsed (row : AttestationRow) : ParsedAttestation :=
  ⟨asU64 row.sourceEpoch, asU64 row.targetEpoch, row.signingRoot⟩

def BlockRow.toParsed (row : BlockRow) : ParsedBlock := ⟨asU64 row.slot, row.signingRoot⟩

/-- The attestations of an exported record, read back: the synthetic one, if any, and the copied rows. A
validator without watermarks has all its rows copied, one with both has `(S*, T*)` and the rows above it. -/
inductive AttestationsExported (t : Tables) (pubkey : String) :
    Option ParsedAttestation → List ParsedAttestation → Prop
  | rows {copied : List ParsedAttestation} (hs : t.watermarks.lookup (pubkey, .attestationSource) = none)
      (ht : t.watermarks.lookup (pubkey, .attestationTarget) = none)
      (hmem : ∀ a, a ∈ copied ↔ ∃ row ∈ t.attestations, row.pubkey = pubkey ∧ row.toParsed = a) :
      AttestationsExported t pubkey none copied
  | floor {ws wt : Int} {source target : Nat} {copied : List ParsedAttestation}
      (hs : t.watermarks.lookup (pubkey, .attestationSource) = some ws)
      (ht : t.watermarks.lookup (pubkey, .attestationTarget) = some wt)
      (hbounds : SyntheticBounds (exportRows t pubkey) (asU64 ws) (asU64 wt) (source, target))
      (hmem : ∀ a, a ∈ copied ↔ ∃ row ∈ t.attestations, row.pubkey = pubkey ∧
        target < asU64 row.targetEpoch ∧ row.toParsed = a) :
      AttestationsExported t pubkey (some ⟨source, target, none⟩) copied

inductive BlocksExported (t : Tables) (pubkey : String) : Option ParsedBlock → List ParsedBlock → Prop
  | rows {copied : List ParsedBlock} (hwm : t.watermarks.lookup (pubkey, .block) = none)
      (hmem : ∀ b, b ∈ copied ↔ ∃ row ∈ t.blocks, row.pubkey = pubkey ∧ row.toParsed = b) :
      BlocksExported t pubkey none copied
  | floor {wm : Int} {copied : List ParsedBlock} (hwm : t.watermarks.lookup (pubkey, .block) = some wm)
      (hmem : ∀ b, b ∈ copied ↔ ∃ row ∈ t.blocks, row.pubkey = pubkey ∧ asU64 wm < asU64 row.slot ∧
        row.toParsed = b) :
      BlocksExported t pubkey (some ⟨asU64 wm, none⟩) copied

theorem parseAttestation_wire {source target : Nat} {root : Option String} (hs : source < 2 ^ 64)
    (ht : target < 2 ^ 64) : parseAttestation ⟨toString source, toString target, root⟩ = .ok ⟨source, target, root⟩ :=
  parseAttestation_ok.mpr ⟨parseU64_repr hs, parseU64_repr ht, rfl⟩

theorem parseBlock_wire {slot : Nat} {root : Option String} (h : slot < 2 ^ 64) :
    parseBlock ⟨toString slot, root⟩ = .ok ⟨slot, root⟩ :=
  parseBlock_ok.mpr ⟨parseU64_repr h, rfl⟩

theorem mapM_parseAttestation_wire (attestations : List SignedAttestation)
    (h : ∀ a ∈ attestations, a.sourceEpoch < 2 ^ 64 ∧ a.targetEpoch < 2 ^ 64) :
    (attestations.map wireAttestation).mapM parseAttestation =
      .ok (attestations.map fun a => ⟨a.sourceEpoch, a.targetEpoch, a.signingRoot⟩) := by
  rw [mapM_eq_ok, forall₂_map_left_iff, forall₂_map_right_iff, forall₂_same]
  exact fun a ha => parseAttestation_wire (h a ha).1 (h a ha).2

theorem mapM_parseBlock_wire (blocks : List SignedBlock) (h : ∀ b ∈ blocks, b.slot < 2 ^ 64) :
    (blocks.map wireBlock).mapM parseBlock = .ok (blocks.map fun b => ⟨b.slot, b.signingRoot⟩) := by
  rw [mapM_eq_ok, forall₂_map_left_iff, forall₂_map_right_iff, forall₂_same]
  exact fun b hb => parseBlock_wire (h b hb)

theorem readAttestations_lt {a : SignedAttestation}
    (h : a ∈ readAttestations t pubkey) : a.sourceEpoch < 2 ^ 64 ∧ a.targetEpoch < 2 ^ 64 := by
  obtain ⟨row, -, -, rfl⟩ := mem_readAttestations.mp h
  exact ⟨asU64_lt _, asU64_lt _⟩

theorem readBlocks_lt {b : SignedBlock} (h : b ∈ readBlocks t pubkey) : b.slot < 2 ^ 64 := by
  obtain ⟨row, -, -, rfl⟩ := mem_readBlocks.mp h
  exact asU64_lt _

theorem mem_exportRows {pair : Nat × Nat} : pair ∈ exportRows t pubkey ↔ ∃ row ∈ t.attestations, row.pubkey = pubkey ∧
      (asU64 row.sourceEpoch, asU64 row.targetEpoch) = pair := by
  rw [exportRows, mem_map, exists_readAttestations]
  rfl

theorem exportAttestations_spec
    {synthetic : Option InterchangeAttestation} {copied : List InterchangeAttestation}
    (h : exportAttestations t pubkey = .ok (synthetic, copied)) :
    ∃ synthetic' copied', AttestationsExported t pubkey synthetic' copied' ∧
      synthetic.toList.mapM parseAttestation = .ok synthetic'.toList ∧
      copied.mapM parseAttestation = .ok copied' := by
  unfold exportAttestations at h
  split at h
  · next hs ht =>
    cases h
    refine ⟨none, _, .rows (Option.map_eq_none_iff.mp hs) (Option.map_eq_none_iff.mp ht) fun a => ?_,
      rfl, mapM_parseAttestation_wire _ fun a ha => readAttestations_lt ha⟩
    rw [mem_map, exists_readAttestations]
    rfl
  · next sourceWm targetWm hs ht =>
    obtain ⟨ws, hws, rfl⟩ := Option.map_eq_some_iff.mp hs
    obtain ⟨wt, hwt, rfl⟩ := Option.map_eq_some_iff.mp ht
    have hspec := syntheticLoop_spec (exportRows t pubkey) (asU64 ws) (asU64 wt)
    unfold attestationSyntheticBounds at h
    split at h
    · next source target hbounds =>
      split at hbounds
      · cases hbounds
      rw [Except.ok.inj hbounds] at hspec
      cases h
      -- the bounds are watermarks or row values, so they fit
      have hsource : source < 2 ^ 64 := by
        rcases hspec.source_mem with heq | ⟨pair, hpair, heq⟩
        · exact heq.trans_lt (asU64_lt ws)
        · obtain ⟨row, -, -, rfl⟩ := mem_exportRows.mp hpair
          exact heq.trans_lt (asU64_lt _)
      have htarget : target < 2 ^ 64 := by
        rcases hspec.target_mem with heq | ⟨pair, hpair, heq⟩
        · exact heq.trans_lt (asU64_lt wt)
        · obtain ⟨row, -, -, rfl⟩ := mem_exportRows.mp hpair
          exact heq.trans_lt (asU64_lt _)
      refine ⟨_, _, .floor hws hwt hspec fun a => ?_,
        mapM_eq_ok.mpr (.cons (parseAttestation_wire hsource htarget) .nil),
        mapM_parseAttestation_wire _ fun a ha => readAttestations_lt (mem_of_mem_filter ha)⟩
      simp only [mem_map, mem_filter, and_assoc, exists_readAttestations, decide_eq_true_eq]
      rfl
    · cases h
  · cases h

theorem exportBlocks_spec {synthetic : Option InterchangeBlock}
    {copied : List InterchangeBlock} (h : exportBlocks t pubkey = (synthetic, copied)) :
    ∃ synthetic' copied', BlocksExported t pubkey synthetic' copied' ∧
      synthetic.toList.mapM parseBlock = .ok synthetic'.toList ∧
      copied.mapM parseBlock = .ok copied' := by
  unfold exportBlocks at h
  split at h
  · next slotWm hwm =>
    obtain ⟨wm, hlookup, rfl⟩ := Option.map_eq_some_iff.mp hwm
    cases h
    refine ⟨_, _, .floor hlookup fun b => ?_, mapM_eq_ok.mpr (.cons (parseBlock_wire (asU64_lt wm)) .nil),
      mapM_parseBlock_wire _ fun b hb => readBlocks_lt (mem_of_mem_filter hb)⟩
    simp only [mem_map, mem_filter, and_assoc, exists_readBlocks, decide_eq_true_eq]
    rfl
  · next hwm =>
    cases h
    refine ⟨none, _, .rows (Option.map_eq_none_iff.mp hwm) fun b => ?_, rfl,
      mapM_parseBlock_wire _ fun b hb => readBlocks_lt hb⟩
    rw [mem_map, exists_readBlocks]
    rfl

/-- Every record of an exported file is its pubkey's row and floor data, and no pubkey comes twice. -/
theorem exportInterchange_spec {gvr : Root} {file : InterchangeFormat} (h : exportInterchange t gvr = .ok file) :
    file.metadata = ⟨"5", rootToHex gvr⟩ ∧ file.data.map (·.pubkey) = readAllPubkeys t ∧
      ∀ record ∈ file.data, ∃ synthetic copied, exportAttestations t record.pubkey = .ok (synthetic, copied) ∧
        record.signedAttestations = synthetic.toList ++ copied ∧
        record.signedBlocks = (exportBlocks t record.pubkey).1.toList ++ (exportBlocks t record.pubkey).2 := by
  simp only [exportInterchange, bind_eq_ok] at h
  obtain ⟨data, hdata, h⟩ := h
  obtain rfl := Except.ok.inj h
  have hrecord : ∀ pubkey entry, exportValidator t pubkey = .ok entry → entry.1.pubkey = pubkey ∧
      ∃ synthetic copied, exportAttestations t pubkey = .ok (synthetic, copied) ∧
        entry.1.signedAttestations = synthetic.toList ++ copied ∧
        entry.1.signedBlocks = (exportBlocks t pubkey).1.toList ++ (exportBlocks t pubkey).2 := by
    intro pubkey entry hentry
    simp only [exportValidator, bind_eq_ok] at hentry
    obtain ⟨⟨synthetic, copied⟩, hatt, hentry⟩ := hentry
    obtain rfl := Except.ok.inj hentry
    exact ⟨rfl, synthetic, copied, hatt, rfl, rfl⟩
  refine ⟨rfl, ?_, fun record hmem => ?_⟩
  · rw [mapM_eq_ok] at hdata
    clear h
    generalize readAllPubkeys t = pubkeys at hdata
    induction hdata with
    | nil => rfl
    | cons hentry _ ih => exact cons_eq_cons.mpr ⟨(hrecord _ _ hentry).1, ih⟩
  · obtain ⟨entry, hentry, rfl⟩ := mem_map.mp hmem
    obtain ⟨pubkey, -, hexport⟩ := exists_of_mem_mapM hdata hentry
    obtain ⟨rfl, hrest⟩ := hrecord pubkey entry hexport
    exact hrest

/-! ### A small database -/

/-- A validator with watermarks `(1, 4)`, a row below them and one above. -/
def sampleTables : Tables :=
  (Tables.putWatermark
    { Tables.empty with attestations :=
        [⟨auditOrigin, "0xaa", 1, 2, some "old", none⟩, ⟨auditOrigin, "0xaa", 3, 8, some "new", none⟩] }
    "0xaa" .attestationSource 1).putWatermark "0xaa" .attestationTarget 4

/-- Its export: the row at target 2 is replaced by the floor. -/
def sampleExport : InterchangeFormat :=
  ⟨⟨"5", rootToHex zeroRoot⟩, [⟨"0xaa", [], [⟨"1", "4", none⟩, ⟨"3", "8", some "new"⟩]⟩]⟩

theorem sampleTables_small : sampleTables.Small := by
  refine Tables.Small.putWatermark (Tables.Small.putWatermark ⟨?_, ?_, ?_⟩ ?_) ?_
  · decide
  · decide
  · exact Tables.small_empty.watermarks
  · decide
  · decide

theorem sampleTables_export : exportInterchange sampleTables zeroRoot = .ok sampleExport := by
  decide +kernel

end Rvc.Slashing
