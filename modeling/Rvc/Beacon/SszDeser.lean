import Rvc.EthTypes.SszHelpers

/-!
# Blocks on the SSZ wire

`beacon::ssz_deser`: where a block lies in a response, how its fields are read, and how a signed block is
framed for publication. A block that was read out of a larger buffer is what the bytes of its region alone
read as (`deserializeBlockFields_region`), so what is published around those bytes is the block that was
checked.
-/

namespace Rvc.Beacon

open Rvc.Lib Rvc.EthTypes
open Rvc.EthTypes.SszHelpers (BeaconBlock BlindedBeaconBlock Bytes rootFromSlice u32ToLeBytes u64FromLeBytes
  usizeFromLeBytes)

inductive SszBlockFormat where
  | beaconBlock
  | blockContents
  deriving DecidableEq

def blockContentsFixedLen : Nat := 12

def gloasBlockContentsFixedLen : Nat := 16

def beaconBlockFixedLen : Nat := 84

def signedBeaconBlockMessageOffset : UInt32 := 100

/-! ### Reading -/

section

variable (bytes : Bytes)

def resolveBlockOffset (format : SszBlockFormat) : Except String Nat :=
  match format with
  | .beaconBlock => .ok 0
  | .blockContents =>
      let length := bytes.length
      if length < blockContentsFixedLen then
        .error s!"SSZ BlockContents too short: {length} bytes, need at least {blockContentsFixedLen}"
      else
        let offset := usizeFromLeBytes (slice bytes 0 4)
        if offset < blockContentsFixedLen then
          .error (s!"SSZ BlockContents block offset {offset} is inside the fixed portion (< " ++
            s!"{blockContentsFixedLen})")
        else
          .ok offset

def resolveBlockRegionEnd (format : SszBlockFormat) (blockOffset : Nat) : Except String Nat :=
  match format with
  | .beaconBlock => .ok bytes.length
  | .blockContents =>
      let length := bytes.length
      let kzgOffset := usizeFromLeBytes (slice bytes 4 8)
      if kzgOffset < blockOffset then
        .error s!"SSZ BlockContents kzg_proofs offset {kzgOffset} precedes block offset {blockOffset}"
      else if length < kzgOffset then
        .error s!"SSZ BlockContents kzg_proofs offset {kzgOffset} exceeds buffer length {length}"
      else
        .ok kzgOffset

def deserializeBlockFields (blockOffset blockRegionEnd : Nat) : Except String BeaconBlock :=
  if 2 ^ 64 ≤ blockOffset + beaconBlockFixedLen then
    .error "SSZ offset overflow"
  else
    let fixedEnd := blockOffset + beaconBlockFixedLen
    if blockRegionEnd < fixedEnd then
      .error (s!"SSZ BeaconBlock too short: region ends at {blockRegionEnd}, need at least {fixedEnd} " ++
        s!"(offset {blockOffset} + fixed {beaconBlockFixedLen})")
    else
      let b := bytes.drop blockOffset
      let bodyOffsetRel := usizeFromLeBytes (slice b 80 84)
      if bodyOffsetRel < beaconBlockFixedLen then
        .error (s!"SSZ BeaconBlock body offset {bodyOffsetRel} is inside the fixed portion (< " ++
          s!"{beaconBlockFixedLen})")
      else
        let bodyStart := blockOffset + bodyOffsetRel
        if blockRegionEnd < bodyStart then
          .error (s!"SSZ BeaconBlock body offset {bodyStart} points past end of block region (" ++
            s!"{blockRegionEnd})")
        else
          .ok
            { slot := u64FromLeBytes (slice b 0 8)
              proposerIndex := u64FromLeBytes (slice b 8 16)
              parentRoot := rootFromSlice (slice b 16 48)
              stateRoot := rootFromSlice (slice b 48 80)
              body := slice bytes bodyStart blockRegionEnd }

def deserializeBeaconBlockFromSsz (format : SszBlockFormat) : Except String (BeaconBlock × Nat) := do
  let blockOffset ← resolveBlockOffset bytes format
  let blockRegionEnd ← resolveBlockRegionEnd bytes format blockOffset
  let block ← deserializeBlockFields bytes blockOffset blockRegionEnd
  .ok (block, blockOffset)

def deserializeBlindedBeaconBlockFromSsz (format : SszBlockFormat) : Except String (BlindedBeaconBlock × Nat) := do
  let blockOffset ← resolveBlockOffset bytes format
  let blockRegionEnd ← resolveBlockRegionEnd bytes format blockOffset
  let block ← deserializeBlockFields bytes blockOffset blockRegionEnd
  .ok (⟨block.slot, block.proposerIndex, block.parentRoot, block.stateRoot, block.body⟩, blockOffset)

structure BlockContentsSsz where
  block : BeaconBlock
  blockSsz : Bytes
  kzgProofs : Bytes
  blobs : Bytes
  deriving DecidableEq

def deserializeBlockContentsSsz (format : SszBlockFormat) : Except String BlockContentsSsz :=
  if format ≠ .blockContents then
    .error "SSZ BlockContents split requires BlockContents format"
  else do
    let blockOffset ← resolveBlockOffset bytes format
    let kzgOffset ← resolveBlockRegionEnd bytes format blockOffset
    let blobsOffset := usizeFromLeBytes (slice bytes 8 12)
    let length := bytes.length
    if blobsOffset < kzgOffset ∨ length < blobsOffset then
      .error (s!"SSZ BlockContents offsets not monotonic or out of bounds: block={blockOffset} " ++
        s!"kzg={kzgOffset} blobs={blobsOffset} len={length}")
    else
      let block ← deserializeBlockFields bytes blockOffset kzgOffset
      .ok ⟨block, slice bytes blockOffset kzgOffset, slice bytes kzgOffset blobsOffset, slice bytes blobsOffset length⟩

def gloasOffsets : Nat × Nat × Nat × Nat :=
  (usizeFromLeBytes (slice bytes 0 4), usizeFromLeBytes (slice bytes 4 8), usizeFromLeBytes (slice bytes 8 12),
    usizeFromLeBytes (slice bytes 12 16))

def looksLikeGloasBlockContents : Bool :=
  if bytes.length < gloasBlockContentsFixedLen then
    false
  else
    let (blockOff, envelopeOff, kzgOff, blobsOff) := gloasOffsets bytes
    blockOff = gloasBlockContentsFixedLen && blockOff ≤ envelopeOff && envelopeOff ≤ kzgOff &&
      kzgOff ≤ blobsOff && blobsOff ≤ bytes.length

structure GloasBlockContentsSsz where
  block : BeaconBlock
  blockSsz : Bytes
  envelopeSsz : Bytes
  kzgProofs : Bytes
  blobs : Bytes

def deserializeGloasBlockContents : Except String GloasBlockContentsSsz :=
  let length := bytes.length
  let (blockOff, envelopeOff, kzgOff, blobsOff) := gloasOffsets bytes
  if length < gloasBlockContentsFixedLen then
    .error s!"SSZ Gloas BlockContents too short: {length} bytes, need at least {gloasBlockContentsFixedLen}"
  else if blockOff < gloasBlockContentsFixedLen then
    .error (s!"SSZ Gloas BlockContents block offset {blockOff} is inside the fixed portion (< " ++
      s!"{gloasBlockContentsFixedLen})")
  else if ¬ (blockOff ≤ envelopeOff ∧ envelopeOff ≤ kzgOff ∧ kzgOff ≤ blobsOff ∧ blobsOff ≤ length) then
    .error (s!"SSZ Gloas BlockContents offsets not monotonic or out of bounds: block={blockOff} " ++
      s!"envelope={envelopeOff} kzg={kzgOff} blobs={blobsOff} len={length}")
  else do
    let block ← deserializeBlockFields bytes blockOff envelopeOff
    .ok ⟨block, slice bytes blockOff envelopeOff, slice bytes envelopeOff kzgOff,
      slice bytes kzgOff blobsOff, slice bytes blobsOff length⟩

end

/-! ### Framing -/

def serializeSignedBeaconBlockSsz (blockSsz signature : Bytes) : Except String Bytes :=
  let length := signature.length
  if length ≠ 96 then
    .error s!"signature must be 96 bytes, got {length}"
  else
    .ok (u32ToLeBytes signedBeaconBlockMessageOffset ++ signature ++ blockSsz)

/-- `encode_signed_envelope_contents`, which `serialize_signed_block_contents_ssz` is. -/
def serializeSignedBlockContentsSsz (signedBlock kzgProofs blobs : Bytes) : Bytes :=
  let o1 := 12 + UInt32.ofNat signedBlock.length
  let o2 := o1 + UInt32.ofNat kzgProofs.length
  u32ToLeBytes 12 ++ u32ToLeBytes o1 ++ u32ToLeBytes o2 ++ signedBlock ++ kzgProofs ++ blobs

/-! ### A region of its own -/

variable {bytes : Bytes}

theorem deserializeBlockFields_region {start stop : Nat} {block : BeaconBlock}
    (h : deserializeBlockFields bytes start stop = .ok block) (hstop : stop ≤ bytes.length) :
    deserializeBlockFields (slice bytes start stop) 0 (slice bytes start stop).length = .ok block := by
  have hfixed : beaconBlockFixedLen = 84 := rfl
  unfold deserializeBlockFields at h
  dsimp only at h
  split at h
  · cases h
  next hover =>
  split at h
  · cases h
  next hregion =>
  split at h
  · cases h
  next hbodyOffset =>
  split at h
  · cases h
  next hbodyStart =>
  cases h
  have hlen : (slice bytes start stop).length = stop - start := length_slice_of_le hstop
  have hsub : ∀ i j, j ≤ 84 → slice (slice bytes start stop) i j = slice (bytes.drop start) i j :=
    fun i j hj => slice_slice (by omega)
  have hbody : ∀ rel, slice (slice bytes start stop) rel (stop - start) = slice bytes (start + rel) stop :=
    fun rel => hlen ▸ slice_slice_end
  unfold deserializeBlockFields
  rw [if_neg (by omega), hlen]
  simp only [List.drop_zero, Nat.zero_add]
  rw [if_neg (by omega), hsub 80 84 (by omega), if_neg (by omega), if_neg (by omega),
    hsub 0 8 (by omega), hsub 8 16 (by omega), hsub 16 48 (by omega), hsub 48 80 (by omega), hbody]

theorem deserializeBeaconBlockFromSsz_block {block : BeaconBlock} {offset : Nat}
    (h : deserializeBeaconBlockFromSsz bytes .beaconBlock = .ok (block, offset)) :
    offset = 0 ∧ deserializeBlockFields bytes 0 bytes.length = .ok block := by
  obtain ⟨start, hstart, h⟩ := bind_eq_ok.mp h
  cases hstart
  obtain ⟨stop, hstop, h⟩ := bind_eq_ok.mp h
  cases hstop
  obtain ⟨parsed, hparsed, h⟩ := bind_eq_ok.mp h
  cases h
  exact ⟨rfl, hparsed⟩

theorem deserializeBlindedBeaconBlockFromSsz_full {format : SszBlockFormat} {block : BlindedBeaconBlock}
    {offset : Nat} (h : deserializeBlindedBeaconBlockFromSsz bytes format = .ok (block, offset)) :
    deserializeBeaconBlockFromSsz bytes format =
      .ok (⟨block.slot, block.proposerIndex, block.parentRoot, block.stateRoot, block.body⟩, offset) := by
  obtain ⟨start, hstart, h⟩ := bind_eq_ok.mp h
  obtain ⟨stop, hstop, h⟩ := bind_eq_ok.mp h
  obtain ⟨parsed, hparsed, h⟩ := bind_eq_ok.mp h
  obtain ⟨rfl, rfl⟩ := Prod.mk.inj (Except.ok.inj h)
  exact bind_eq_ok.mpr ⟨start, hstart, bind_eq_ok.mpr ⟨stop, hstop, bind_eq_ok.mpr ⟨parsed, hparsed, rfl⟩⟩⟩

theorem deserializeBlockContentsSsz_block {format : SszBlockFormat}
    {contents : BlockContentsSsz} (h : deserializeBlockContentsSsz bytes format = .ok contents) :
    deserializeBlockFields contents.blockSsz 0 contents.blockSsz.length = .ok contents.block := by
  unfold deserializeBlockContentsSsz at h
  split at h
  · cases h
  simp only [bind_eq_ok] at h
  obtain ⟨blockOffset, -, kzgOffset, hend, h⟩ := h
  split at h
  · cases h
  next hmono =>
  obtain ⟨block, hblock, hcontents⟩ := bind_eq_ok.mp h
  cases hcontents
  exact deserializeBlockFields_region hblock (by omega)

theorem deserializeGloasBlockContents_block {contents : GloasBlockContentsSsz}
    (h : deserializeGloasBlockContents bytes = .ok contents) :
    deserializeBlockFields contents.blockSsz 0 contents.blockSsz.length = .ok contents.block := by
  unfold deserializeGloasBlockContents at h
  dsimp only at h
  split at h
  · cases h
  split at h
  · cases h
  split at h
  · cases h
  next hmono =>
  obtain ⟨block, hblock, hcontents⟩ := bind_eq_ok.mp h
  cases hcontents
  exact deserializeBlockFields_region hblock (by omega)

end Rvc.Beacon
