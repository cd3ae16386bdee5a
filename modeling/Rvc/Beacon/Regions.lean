import Rvc.Beacon.SszDeser

/-!
# The regions of a response

A response is an offset table and the regions it points to, of which one is the block. The readers check that the
offsets are in order, but not that the first region starts where the table ends, nor that the body of a block starts
where its fixed part ends. Exactly where both do (`Tight`), the regions are the whole response, without gap or overlap,
and the region of the block is the encoding of the block that was read.
-/

namespace Rvc.Beacon

open Rvc.Lib Rvc.EthTypes List Nat SszHelpers
open Rvc.EthTypes.SszHelpers (BeaconBlock BlindedBeaconBlock Bytes CanonicalBlock blindedBlockCodec blockCodec
  decodeBlockContainer rootFromSlice u64FromLeBytes usizeFromLeBytes)

/-! ### The block of a region -/

variable {bytes : Bytes} {block : BeaconBlock} {format : SszBlockFormat} {offset : Nat}

theorem decodeBlockContainer_of_fields (h : deserializeBlockFields bytes 0 bytes.length = .ok block) :
    decodeBlockContainer bytes =
      .ok (block.slot, block.proposerIndex, block.parentRoot, block.stateRoot, block.body) := by
  have hfixed : beaconBlockFixedLen = 84 := rfl
  unfold deserializeBlockFields at h
  simp only [drop_zero, zero_add] at h
  split at h
  · cases h
  split at h
  · cases h
  next hregion =>
  split at h
  · cases h
  next hinside =>
  split at h
  · cases h
  next hpast =>
  cases h
  unfold decodeBlockContainer
  rw [if_neg (by omega)]
  dsimp only
  rw [if_neg (by omega), slice_length]

theorem encodes_iff (h : deserializeBlockFields bytes 0 bytes.length = .ok block) :
    blockCodec.Encodes block bytes ↔ CanonicalBlock bytes := by
  have hcontainer := decodeBlockContainer_of_fields h
  have hdecode : decodeBeaconBlockSsz bytes 0 = .ok block :=
    bind_eq_ok.mpr ⟨(), rfl, bind_eq_ok.mpr ⟨_, hcontainer, rfl⟩⟩
  exact (and_iff_left hdecode).trans (encodeBeaconBlockInner_eq_iff hcontainer)

theorem blindedEncodes_iff {block : BlindedBeaconBlock} (h : deserializeBlockFields bytes 0 bytes.length =
      .ok ⟨block.slot, block.proposerIndex, block.parentRoot, block.stateRoot, block.body⟩) :
    blindedBlockCodec.Encodes block bytes ↔ CanonicalBlock bytes := by
  have hcontainer := decodeBlockContainer_of_fields h
  have hdecode : decodeBlindedBeaconBlockSsz bytes 0 = .ok block :=
    bind_eq_ok.mpr ⟨(), rfl, bind_eq_ok.mpr ⟨_, hcontainer, rfl⟩⟩
  exact (and_iff_left hdecode).trans (encodeBeaconBlockInner_eq_iff hcontainer)

/-! ### Regions -/

section

variable (bytes : Bytes)

def contentsOffsets : Nat × Nat × Nat :=
  (usizeFromLeBytes (slice bytes 0 4), usizeFromLeBytes (slice bytes 4 8), usizeFromLeBytes (slice bytes 8 12))

def blockRegion : SszBlockFormat → Bytes
  | .beaconBlock => bytes
  | .blockContents => slice bytes (contentsOffsets bytes).1 (contentsOffsets bytes).2.1

/-- Where the table and the regions are. -/
def regions : SszBlockFormat → List (Nat × Nat)
  | .beaconBlock => [(0, bytes.length)]
  | .blockContents =>
      [(0, blockContentsFixedLen), ((contentsOffsets bytes).1, (contentsOffsets bytes).2.1),
        ((contentsOffsets bytes).2.1, (contentsOffsets bytes).2.2), ((contentsOffsets bytes).2.2, bytes.length)]

def gloasRegions : List (Nat × Nat) :=
  [(0, gloasBlockContentsFixedLen), ((gloasOffsets bytes).1, (gloasOffsets bytes).2.1),
    ((gloasOffsets bytes).2.1, (gloasOffsets bytes).2.2.1),
    ((gloasOffsets bytes).2.2.1, (gloasOffsets bytes).2.2.2), ((gloasOffsets bytes).2.2.2, bytes.length)]

/-- The regions follow each other without gap or overlap, and put together they are the whole. -/
def Partitions (parts : List (Nat × Nat)) : Prop :=
  Tiles parts 0 bytes.length ∧ (parts.map fun part => slice bytes part.1 part.2).flatten = bytes

/-- The first region starts where the table ends, and the body of the block where its fixed part ends. -/
def Tight : SszBlockFormat → Prop
  | .beaconBlock => CanonicalBlock bytes
  | .blockContents =>
      (contentsOffsets bytes).1 = blockContentsFixedLen ∧ CanonicalBlock (blockRegion bytes .blockContents)

/-- The offset of the blobs, which only the reader of whole contents checks. -/
def BlobsInOrder : SszBlockFormat → Prop
  | .beaconBlock => True
  | .blockContents =>
      (contentsOffsets bytes).2.1 ≤ (contentsOffsets bytes).2.2 ∧ (contentsOffsets bytes).2.2 ≤ bytes.length

def TightGloas : Prop :=
  (gloasOffsets bytes).1 = gloasBlockContentsFixedLen ∧
    CanonicalBlock (slice bytes (gloasOffsets bytes).1 (gloasOffsets bytes).2.1)

end

theorem partitions_iff {parts : List (Nat × Nat)} : Partitions bytes parts ↔ Tiles parts 0 bytes.length := by
  refine and_iff_left_of_imp fun htiles => ?_
  rw [htiles.flatten_slice, slice_zero_of_length_le (le_refl _)]

theorem resolve_blockContents {start stop : Nat} (hstart : resolveBlockOffset bytes .blockContents = .ok start)
    (hstop : resolveBlockRegionEnd bytes .blockContents start = .ok stop) :
    start = (contentsOffsets bytes).1 ∧ stop = (contentsOffsets bytes).2.1 ∧ start ≤ stop ∧ stop ≤ bytes.length := by
  unfold resolveBlockOffset at hstart
  dsimp only at hstart
  split at hstart
  · cases hstart
  split at hstart
  · cases hstart
  cases hstart
  unfold resolveBlockRegionEnd at hstop
  dsimp only at hstop
  split at hstop
  · cases hstop
  next hle =>
  split at hstop
  · cases hstop
  next hpast =>
  cases hstop
  exact ⟨rfl, rfl, Nat.le_of_not_lt hle, Nat.le_of_not_lt hpast⟩

theorem partitions_regions_iff {start stop : Nat} (hstart : resolveBlockOffset bytes format = .ok start)
    (hstop : resolveBlockRegionEnd bytes format start = .ok stop) :
    CanonicalBlock (blockRegion bytes format) ∧ Partitions bytes (regions bytes format) ↔
      Tight bytes format ∧ BlobsInOrder bytes format := by
  rw [partitions_iff]
  cases format with
  | beaconBlock => simp [regions, Tiles, Tight, BlobsInOrder, blockRegion]
  | blockContents =>
    obtain ⟨rfl, rfl, hle, hend⟩ := resolve_blockContents hstart hstop
    have hfixed : blockContentsFixedLen = 12 := rfl
    simp only [regions, Tiles, Tight, BlobsInOrder, hfixed]
    constructor
    · rintro ⟨hcanonical, -, -, hfirst, -, -, hblobs, -, hlast, -⟩
      exact ⟨⟨hfirst, hcanonical⟩, hblobs, hlast⟩
    · rintro ⟨⟨hfirst, hcanonical⟩, hblobs, hlast⟩
      exact ⟨hcanonical, trivial, zero_le 12, hfirst, hfirst ▸ hle, trivial, hblobs, trivial, hlast, trivial⟩

theorem deserializeBlockFields_blockRegion {start stop : Nat} (hstart : resolveBlockOffset bytes format = .ok start)
    (hstop : resolveBlockRegionEnd bytes format start = .ok stop)
    (hblock : deserializeBlockFields bytes start stop = .ok block) :
    deserializeBlockFields (blockRegion bytes format) 0 (blockRegion bytes format).length = .ok block := by
  cases format with
  | beaconBlock =>
    cases hstart
    cases hstop
    exact hblock
  | blockContents =>
    obtain ⟨rfl, rfl, -, hend⟩ := resolve_blockContents hstart hstop
    exact deserializeBlockFields_region hblock hend

/-! ### The readers -/

theorem deserializeBeaconBlockFromSsz_eq_ok (h : deserializeBeaconBlockFromSsz bytes format = .ok (block, offset)) :
    deserializeBlockFields (blockRegion bytes format) 0 (blockRegion bytes format).length = .ok block ∧
      (CanonicalBlock (blockRegion bytes format) ∧ Partitions bytes (regions bytes format) ↔
        Tight bytes format ∧ BlobsInOrder bytes format) := by
  obtain ⟨start, hstart, h⟩ := bind_eq_ok.mp h
  obtain ⟨stop, hstop, h⟩ := bind_eq_ok.mp h
  obtain ⟨parsed, hparsed, h⟩ := bind_eq_ok.mp h
  cases h
  exact ⟨deserializeBlockFields_blockRegion hstart hstop hparsed, partitions_regions_iff hstart hstop⟩

theorem deserializeBeaconBlockFromSsz_encodes (h : deserializeBeaconBlockFromSsz bytes format = .ok (block, offset)) :
    blockCodec.Encodes block (blockRegion bytes format) ∧ Partitions bytes (regions bytes format) ↔
      Tight bytes format ∧ BlobsInOrder bytes format := by
  obtain ⟨hfields, htight⟩ := deserializeBeaconBlockFromSsz_eq_ok h
  rw [encodes_iff hfields, htight]

theorem deserializeBlindedBeaconBlockFromSsz_encodes {block : BlindedBeaconBlock}
    (h : deserializeBlindedBeaconBlockFromSsz bytes format = .ok (block, offset)) :
    blindedBlockCodec.Encodes block (blockRegion bytes format) ∧ Partitions bytes (regions bytes format) ↔
      Tight bytes format ∧ BlobsInOrder bytes format := by
  obtain ⟨hfields, htight⟩ := deserializeBeaconBlockFromSsz_eq_ok (deserializeBlindedBeaconBlockFromSsz_full h)
  rw [blindedEncodes_iff hfields, htight]

section

variable {contents : BlockContentsSsz} (h : deserializeBlockContentsSsz bytes format = .ok contents)

include h

theorem deserializeBlockContentsSsz_eq_ok :
    format = .blockContents ∧ resolveBlockOffset bytes format = .ok (contentsOffsets bytes).1 ∧
      resolveBlockRegionEnd bytes format (contentsOffsets bytes).1 = .ok (contentsOffsets bytes).2.1 ∧
      deserializeBlockFields bytes (contentsOffsets bytes).1 (contentsOffsets bytes).2.1 = .ok contents.block ∧
      BlobsInOrder bytes format ∧ contents.blockSsz = blockRegion bytes format ∧
      contents.kzgProofs = slice bytes (contentsOffsets bytes).2.1 (contentsOffsets bytes).2.2 ∧
      contents.blobs = slice bytes (contentsOffsets bytes).2.2 bytes.length := by
  unfold deserializeBlockContentsSsz at h
  split at h
  · cases h
  next hformat =>
  obtain rfl := not_not.mp hformat
  simp only [bind_eq_ok] at h
  obtain ⟨start, hstart, stop, hstop, h⟩ := h
  split at h
  · cases h
  next hmono =>
  obtain ⟨block, hblock, hcontents⟩ := bind_eq_ok.mp h
  cases hcontents
  obtain ⟨rfl, rfl, -, -⟩ := resolve_blockContents hstart hstop
  have hmono := not_or.mp hmono
  exact ⟨rfl, hstart, hstop, hblock, ⟨Nat.le_of_not_lt hmono.1, Nat.le_of_not_lt hmono.2⟩, rfl, rfl, rfl⟩

theorem deserializeBlockContentsSsz_encodes :
    (blockCodec.Encodes contents.block contents.blockSsz ∧ Partitions bytes (regions bytes format) ↔
      Tight bytes format) ∧
    (regions bytes format).map (fun part => slice bytes part.1 part.2) =
      [slice bytes 0 blockContentsFixedLen, contents.blockSsz, contents.kzgProofs, contents.blobs] := by
  obtain ⟨rfl, hstart, hstop, hblock, hblobs, hblockSsz, hproofs, hrest⟩ := deserializeBlockContentsSsz_eq_ok h
  constructor
  · rw [hblockSsz, encodes_iff (deserializeBlockFields_blockRegion hstart hstop hblock),
      partitions_regions_iff hstart hstop]
    exact and_iff_left hblobs
  · rw [hblockSsz, hproofs, hrest]
    rfl

end

theorem deserializeGloasBlockContents_encodes {contents : GloasBlockContentsSsz}
    (h : deserializeGloasBlockContents bytes = .ok contents) :
    (blockCodec.Encodes contents.block contents.blockSsz ∧ Partitions bytes (gloasRegions bytes) ↔
      TightGloas bytes) ∧
    (gloasRegions bytes).map (fun part => slice bytes part.1 part.2) =
      [slice bytes 0 gloasBlockContentsFixedLen, contents.blockSsz, contents.envelopeSsz, contents.kzgProofs,
        contents.blobs] := by
  have hfields := deserializeGloasBlockContents_block h
  unfold deserializeGloasBlockContents at h
  dsimp only at h
  split at h
  · cases h
  split at h
  · cases h
  split at h
  · cases h
  next hmono =>
  obtain ⟨hblock, henvelope, hkzg, hblobs⟩ := not_not.mp hmono
  obtain ⟨block, hparsed, hcontents⟩ := bind_eq_ok.mp h
  cases hcontents
  refine ⟨?_, rfl⟩
  rw [encodes_iff hfields, partitions_iff]
  simp only [gloasRegions, Tiles, TightGloas]
  constructor
  · rintro ⟨hcanonical, -, -, hfirst, -⟩
    exact ⟨hfirst, hcanonical⟩
  · rintro ⟨hfirst, hcanonical⟩
    exact ⟨hcanonical, trivial, zero_le _, hfirst, hfirst ▸ hblock, trivial, henvelope, trivial, hkzg, trivial,
      hblobs, trivial⟩

end Rvc.Beacon
