import Rvc.Beacon.Regions
import Rvc.BlockService.Order

/-!
# What is published is what was signed

`sign_and_publish_ssz` signs the header of the block it has read, and publishes the bytes it has read it from. A node
that reads the published container strictly finds those bytes as the message. They are the encoding of that block
exactly if the body of the block stands where its fixed part ends; a block with a gap before its body is signed and
published all the same, with a message that is not.
-/

namespace Rvc.BlockService

open Rvc.EthTypes Rvc.Beacon Rvc.Lib List SszHelpers UInt32
open Rvc.EthTypes.SszHelpers (BeaconBlock BlindedBeaconBlock Bytes CanonicalBlock blindedBlockCodec blockCodec
  length_u32ToLeBytes u32ToLeBytes usizeFromLeBytes usizeFromLeBytes_u32ToLeBytes)

/-! ### Containers, read strictly -/

/-- A `SignedBeaconBlock`: its signature and its message, which starts where the fixed part ends. -/
def readSigned (bytes : Bytes) : Option (Bytes × Bytes) :=
  if bytes.length < 100 ∨ usizeFromLeBytes (slice bytes 0 4) ≠ 100 then none
  else some (slice bytes 4 100, bytes.drop 100)

/-- A `SignedBlockContents`: the signed block, the proofs and the blobs. -/
def readSignedContents (bytes : Bytes) : Option (Bytes × Bytes × Bytes) :=
  let (signedOffset, kzgOffset, blobsOffset) := contentsOffsets bytes
  if bytes.length < 12 ∨ signedOffset ≠ 12 ∨ kzgOffset < signedOffset ∨ blobsOffset < kzgOffset ∨
      bytes.length < blobsOffset then none
  else some (slice bytes signedOffset kzgOffset, slice bytes kzgOffset blobsOffset, bytes.drop blobsOffset)

variable {signature message : Bytes}

theorem readSigned_eq_some {bytes : Bytes} (hsignature : signature.length = 96) :
    readSigned bytes = some (signature, message) ↔ bytes = u32ToLeBytes 100 ++ signature ++ message := by
  have hhead : (u32ToLeBytes 100 ++ signature).length = 100 := by
    rw [length_append, length_u32ToLeBytes, hsignature]
  unfold readSigned
  constructor
  · intro h
    split at h
    · cases h
    next hfixed =>
    cases h
    have hoffset : u32ToLeBytes 100 = slice bytes 0 4 :=
      u32ToLeBytes_of_usizeFromLeBytes (length_slice_of_le (by omega)) (not_not.mp (not_or.mp hfixed).2).symm
    rw [hoffset, slice_append_slice (by omega) (by omega), slice_append_drop (by omega), drop_zero]
  · rintro rfl
    have hoffset : slice (u32ToLeBytes 100 ++ signature ++ message) 0 4 = u32ToLeBytes 100 := by
      rw [append_assoc]
      exact slice_append_self (length_u32ToLeBytes 100)
    have hsig : slice (u32ToLeBytes 100 ++ signature ++ message) 4 100 = signature := by
      have := @slice_append_middle _ (u32ToLeBytes 100) signature message 4 (length_u32ToLeBytes 100)
      rw [hsignature, ← append_assoc] at this
      exact this
    rw [hoffset, usizeFromLeBytes_u32ToLeBytes, hsig, drop_left' hhead, if_neg]
    rw [length_append, hhead]
    exact not_or.mpr ⟨by omega, not_not_intro rfl⟩

theorem serializeSigned_eq (hsignature : signature.length = 96) (blockSsz : Bytes) :
    serializeSignedBeaconBlockSsz blockSsz signature = .ok (u32ToLeBytes 100 ++ signature ++ blockSsz) := by
  rw [serializeSignedBeaconBlockSsz, if_neg (not_not_intro hsignature)]
  rfl

section

variable (signedBlock kzgProofs blobs : Bytes)

/-- The table of a published container, and what stands behind it. -/
theorem contents_serialize : contentsOffsets (serializeSignedBlockContentsSsz signedBlock kzgProofs blobs) =
      (12, (12 + UInt32.ofNat signedBlock.length).toNat,
        (12 + UInt32.ofNat signedBlock.length + UInt32.ofNat kzgProofs.length).toNat) ∧
    ∃ table : Bytes, table.length = 12 ∧ serializeSignedBlockContentsSsz signedBlock kzgProofs blobs =
      table ++ (signedBlock ++ (kzgProofs ++ blobs)) := by
  have htext : serializeSignedBlockContentsSsz signedBlock kzgProofs blobs =
      (u32ToLeBytes 12 ++ (u32ToLeBytes (12 + ofNat signedBlock.length) ++
        (u32ToLeBytes (12 + ofNat signedBlock.length + ofNat kzgProofs.length) ++
          (signedBlock ++ (kzgProofs ++ blobs))))) := by
    simp only [serializeSignedBlockContentsSsz, append_assoc]
  constructor
  · rw [htext, contentsOffsets, slice_append_self (length_u32ToLeBytes 12),
      slice_append_right (length_u32ToLeBytes 12) (Nat.le_refl 4), slice_append_self (length_u32ToLeBytes _),
      slice_append_right (length_u32ToLeBytes 12) (by omega),
      slice_append_right (length_u32ToLeBytes _) (Nat.le_refl 4), slice_append_self (length_u32ToLeBytes _)]
    simp only [usizeFromLeBytes_u32ToLeBytes]
    rfl
  · refine ⟨u32ToLeBytes 12 ++ u32ToLeBytes (12 + ofNat signedBlock.length) ++
      u32ToLeBytes (12 + ofNat signedBlock.length + ofNat kzgProofs.length), by simp, ?_⟩
    rw [htext]
    simp only [append_assoc]

end

/-- A published container gives back what it was put together from exactly if its offsets can be expressed. -/
theorem readSignedContents_serialize {signedBlock kzgProofs blobs : Bytes} :
    readSignedContents (serializeSignedBlockContentsSsz signedBlock kzgProofs blobs) =
      some (signedBlock, kzgProofs, blobs) ↔ 12 + signedBlock.length + kzgProofs.length < 2 ^ 32 := by
  obtain ⟨hoffsets, table, htable, htext⟩ := contents_serialize signedBlock kzgProofs blobs
  generalize serializeSignedBlockContentsSsz signedBlock kzgProofs blobs = text at hoffsets htext ⊢
  generalize hkzg : (12 + ofNat signedBlock.length).toNat = kzgOffset at hoffsets
  generalize hblobs : (12 + ofNat signedBlock.length + ofNat kzgProofs.length).toNat = blobsOffset at hoffsets
  rw [readSignedContents, hoffsets]
  dsimp only
  constructor
  · intro h
    split at h
    · cases h
    next horder =>
    obtain ⟨hfirst, hrest⟩ := Prod.mk.inj (Option.some.inj h)
    obtain ⟨hsecond, -⟩ := Prod.mk.inj hrest
    have hsigned := congrArg length hfirst
    rw [length_slice_of_le (by omega)] at hsigned
    have hproofs := congrArg length hsecond
    rw [length_slice_of_le (by omega)] at hproofs
    have hsmall : blobsOffset < 2 ^ 32 := hblobs ▸ toNat_lt _
    omega
  · intro hsize
    have hkzgOffset : 12 + signedBlock.length = kzgOffset :=
      hkzg ▸ (@offset_toNat 12 signedBlock.length (by omega)).symm
    have hblobsOffset : kzgOffset + kzgProofs.length = blobsOffset := by
      have hsum : (12 : UInt32) + ofNat signedBlock.length = ofNat kzgOffset := by
        rw [← hkzgOffset, ofNat_add]
        rfl
      rw [← hblobs, hsum, offset_toNat (by omega)]
    have hfirst : slice text 12 kzgOffset = signedBlock := by
      rw [htext, ← hkzgOffset]
      exact slice_append_middle htable
    have hsecond : slice text kzgOffset blobsOffset = kzgProofs := by
      rw [htext, ← hblobsOffset, ← append_assoc]
      exact slice_append_middle (by rw [length_append, htable, hkzgOffset])
    have hthird : text.drop blobsOffset = blobs := by
      rw [htext, ← hblobsOffset, ← append_assoc]
      exact drop_append_append (by rw [length_append, htable, hkzgOffset])
    rw [if_neg, hfirst, hsecond, hthird]
    rw [htext]
    simp only [length_append, htable]
    omega

/-! ### Publication -/

/-- The offsets of what is published can be expressed: 12 for the table, 100 for a signature and its offset. -/
def Fits : Option BlockContentsSsz → Prop
  | none => True
  | some contents => 112 + contents.blockSsz.length + contents.kzgProofs.length < 2 ^ 32

/-- A node that reads the published bytes strictly finds the message under the signature, with the proofs and the blobs
that came with it. -/
def Holds (published signature message : Bytes) : Option BlockContentsSsz → Prop
  | none => readSigned published = some (signature, message)
  | some contents =>
      ∃ signedBlock, readSignedContents published = some (signedBlock, contents.kzgProofs, contents.blobs) ∧
        readSigned signedBlock = some (signature, message)

section

variable {J : Type} {P : Primitives J} {response : ProduceBlockResponse J} {sszBytes : Bytes} {slot : Nat}
  {format : SszBlockFormat} {validator : Option BlockResponseValidator} {prepared : Prepared J}

theorem sszPublication_none_holds (hsignature : signature.length = 96) :
    ∃ published, sszPublication response sszBytes none signature =
        .ok (.publishBlockSsz published response.consensusVersion response.isBlinded response.builderUrl) ∧
      (Holds published signature sszBytes none ↔ Fits none) :=
  ⟨_, bind_eq_ok.mpr ⟨_, mapError_eq_ok.mpr (serializeSigned_eq hsignature sszBytes), rfl⟩,
    iff_of_true ((readSigned_eq_some hsignature).mpr rfl) trivial⟩

theorem sszPublication_some_holds (contents : BlockContentsSsz) (hsignature : signature.length = 96) :
    ∃ published, sszPublication response sszBytes (some contents) signature =
        .ok (.publishBlockSsz published response.consensusVersion response.isBlinded response.builderUrl) ∧
      (Holds published signature contents.blockSsz (some contents) ↔ Fits (some contents)) := by
  refine ⟨_, bind_eq_ok.mpr ⟨_, mapError_eq_ok.mpr (serializeSigned_eq hsignature contents.blockSsz), rfl⟩, ?_⟩
  simp only [Holds, readSigned_eq_some hsignature, exists_eq_right, readSignedContents_serialize, Fits,
    length_append, length_u32ToLeBytes, hsignature]
  omega

/-! ### The pre-Gloas path -/

variable {header : BeaconBlockHeaderFields}

/-- The message is the encoding of a block, full or blinded, whose header is `header`. -/
def Signs (P : Primitives J) (isBlinded : Bool) (header : BeaconBlockHeaderFields) (message : Bytes) : Prop :=
  if isBlinded then
    ∃ block : BlindedBeaconBlock, headerFromBlinded P block = .ok header ∧ blindedBlockCodec.Encodes block message
  else ∃ block : BeaconBlock, headerFromFull P block = .ok header ∧ blockCodec.Encodes block message

theorem Signs.canonicalBlock {isBlinded : Bool} (h : Signs P isBlinded header message) : CanonicalBlock message := by
  cases isBlinded with
  | true | false =>
    obtain ⟨block, -, hencode, -⟩ := h
    rw [← hencode]
    exact canonicalBlock_encode ..

theorem prepareSsz_published (hbytes : response.sszBytes = some sszBytes)
    (hformat : sszBlockFormat response.isBlinded response.consensusVersion = .ok format)
    (h : prepareSsz P response slot validator = .ok prepared) (hsignature : signature.length = 96) :
    ∃ contents published, sszContents sszBytes format = .ok contents ∧ prepared.publication signature =
        .ok (.publishBlockSsz published response.consensusVersion response.isBlinded response.builderUrl) ∧
      (Holds published signature (blockRegion sszBytes format) contents ↔ Fits contents) ∧
      (Signs P response.isBlinded prepared.header (blockRegion sszBytes format) ↔
        CanonicalBlock (blockRegion sszBytes format)) := by
  obtain ⟨sszBytes', format', contents, hbytes', hformat', hcontents, hpublication, hread⟩ := prepareSsz_read h
  cases hbytes.symm.trans hbytes'
  cases hformat.symm.trans hformat'
  rw [hpublication]
  cases hisBlinded : response.isBlinded <;> rw [hisBlinded] at hread
  · cases hread with
    | bare hbare hblock _ hheader =>
      subst hbare
      obtain ⟨published, hpublished, hholds⟩ := @sszPublication_none_holds signature J response sszBytes hsignature
      obtain ⟨hfields, -⟩ := deserializeBeaconBlockFromSsz_eq_ok hblock
      exact ⟨none, published, hcontents, hisBlinded ▸ hpublished, hholds, Signs.canonicalBlock,
        fun hcanonical => ⟨_, hheader, (encodes_iff hfields).mpr hcanonical⟩⟩
    | @contents parsed hblock _ hheader =>
      obtain ⟨published, hpublished, hholds⟩ :=
        @sszPublication_some_holds signature J response sszBytes parsed hsignature
      have hfields := deserializeBlockContentsSsz_block hblock
      obtain ⟨-, -, -, -, -, hregion, -, -⟩ := deserializeBlockContentsSsz_eq_ok hblock
      rw [← hregion]
      exact ⟨some parsed, published, hcontents, hisBlinded ▸ hpublished, hholds, Signs.canonicalBlock,
        fun hcanonical => ⟨_, hheader, (encodes_iff hfields).mpr hcanonical⟩⟩
  · cases hread with
    | blinded hbare hblock _ hheader =>
      subst hbare
      obtain ⟨published, hpublished, hholds⟩ := @sszPublication_none_holds signature J response sszBytes hsignature
      obtain ⟨hfields, -⟩ := deserializeBeaconBlockFromSsz_eq_ok (deserializeBlindedBeaconBlockFromSsz_full hblock)
      exact ⟨none, published, hcontents, hisBlinded ▸ hpublished, hholds, Signs.canonicalBlock,
        fun hcanonical => ⟨_, hheader, (blindedEncodes_iff hfields).mpr hcanonical⟩⟩

/-! ### The Gloas path -/

/-- Where the block of a Gloas response is: in its contents if the payload is included, and alone if not. -/
def v4Region (payloadIncluded : Bool) (bytes : Bytes) : Bytes :=
  if payloadIncluded then slice bytes (gloasOffsets bytes).1 (gloasOffsets bytes).2.1 else bytes

theorem decodeV4Ssz_region {decoded : ProduceBlockV4Body J} (hbytes : response.sszBytes = some sszBytes)
    (h : decodeV4Ssz response = .ok decoded) :
    decoded.parts.2.1 = some (v4Region response.payloadIncluded sszBytes) ∧
      deserializeBlockFields (v4Region response.payloadIncluded sszBytes) 0
        (v4Region response.payloadIncluded sszBytes).length = .ok decoded.parts.1 := by
  unfold decodeV4Ssz at h
  rw [hbytes] at h
  dsimp only at h
  split at h
  · cases h
  split at h
  · next hincluded _ =>
    obtain ⟨parsed, hparsed, rfl⟩ := map_eq_ok.mp h
    have hregion : parsed.blockSsz = v4Region response.payloadIncluded sszBytes := by
      rw [v4Region, if_pos hincluded]
      exact (cons.inj (cons.inj (deserializeGloasBlockContents_encodes hparsed).2).2).1.symm
    rw [← hregion]
    exact ⟨rfl, deserializeGloasBlockContents_block hparsed⟩
  · next hincluded _ =>
    obtain ⟨⟨block, offset⟩, hparsed, rfl⟩ := map_eq_ok.mp h
    obtain ⟨rfl, hfields⟩ := deserializeBeaconBlockFromSsz_block hparsed
    rw [v4Region, if_neg (by rw [hincluded]; decide)]
    exact ⟨rfl, hfields⟩
  · cases h
  · cases h

theorem prepareV4_published {fork : ForkName} {envelope : Option (PreparedEnvelope J)} (hssz : response.isSsz = true)
    (hbytes : response.sszBytes = some sszBytes)
    (h : prepareV4 P response slot validator fork = .ok (prepared, envelope)) (hsignature : signature.length = 96) :
    ∃ block published builderUrl, gloasHeaderAndRoot P block = .ok (prepared.header, prepared.blockRoot) ∧
      prepared.publication signature = .ok (.publishBlockSsz published fork.name false builderUrl) ∧
      readSigned published = some (signature, v4Region response.payloadIncluded sszBytes) ∧
      (blockCodec.Encodes block (v4Region response.payloadIncluded sszBytes) ↔
        CanonicalBlock (v4Region response.payloadIncluded sszBytes)) := by
  obtain ⟨_, -, h⟩ := bind_eq_ok.mp h
  obtain ⟨decoded, hdecoded, h⟩ := bind_eq_ok.mp h
  obtain ⟨_, -, h⟩ := bind_eq_ok.mp h
  obtain ⟨_, -, h⟩ := bind_eq_ok.mp h
  obtain ⟨_, -, h⟩ := bind_eq_ok.mp h
  obtain ⟨_, -, h⟩ := bind_eq_ok.mp h
  obtain ⟨⟨header, blockRoot⟩, hheader, h⟩ := bind_eq_ok.mp h
  cases h
  have hdecoded := mapError_eq_ok.mp hdecoded
  rw [decodeV4Body, if_pos hssz] at hdecoded
  obtain ⟨hmessage, hfields⟩ := decodeV4Ssz_region hbytes hdecoded
  generalize v4Region response.payloadIncluded sszBytes = message at hmessage hfields ⊢
  have hpublication (builderUrl : Option String) :
      (v4Publication fork builderUrl decoded.parts.1 decoded.parts.2.1 signature : Except _ (Call J)) =
        .ok (.publishBlockSsz (u32ToLeBytes 100 ++ signature ++ message) fork.name false builderUrl) := by
    rw [hmessage]
    exact bind_eq_ok.mpr ⟨_, mapError_eq_ok.mpr (serializeSigned_eq hsignature message), rfl⟩
  exact ⟨decoded.parts.1, _, _, hheader, hpublication _, (readSigned_eq_some hsignature).mpr rfl, encodes_iff hfields⟩

end

/-! ### The whole -/

/-- A response that a reader accepts is split into its regions without gap or overlap, with the encoding of the block
that was read as the region of the block, exactly if the first region starts where the table ends, the body of the block
where its fixed part ends, and the blobs, where they are not looked at, in between. What is then published, read
strictly, has the region of the block as its message exactly if the offsets can be expressed, and this is the encoding
of a block with the header that was signed exactly if the body starts where the fixed part ends. -/
theorem published_as_signed (bytes : Bytes) :
    (∀ format block offset, deserializeBeaconBlockFromSsz bytes format = .ok (block, offset) →
      (blockCodec.Encodes block (blockRegion bytes format) ∧ Partitions bytes (regions bytes format) ↔
        Tight bytes format ∧ BlobsInOrder bytes format)) ∧
    (∀ format block offset, deserializeBlindedBeaconBlockFromSsz bytes format = .ok (block, offset) →
      (blindedBlockCodec.Encodes block (blockRegion bytes format) ∧ Partitions bytes (regions bytes format) ↔
        Tight bytes format ∧ BlobsInOrder bytes format)) ∧
    (∀ format contents, deserializeBlockContentsSsz bytes format = .ok contents →
      (blockCodec.Encodes contents.block contents.blockSsz ∧ Partitions bytes (regions bytes format) ↔
        Tight bytes format) ∧
      (regions bytes format).map (fun part => slice bytes part.1 part.2) =
        [slice bytes 0 blockContentsFixedLen, contents.blockSsz, contents.kzgProofs, contents.blobs]) ∧
    (∀ contents, deserializeGloasBlockContents bytes = .ok contents →
      (blockCodec.Encodes contents.block contents.blockSsz ∧ Partitions bytes (gloasRegions bytes) ↔
        TightGloas bytes) ∧
      (gloasRegions bytes).map (fun part => slice bytes part.1 part.2) =
        [slice bytes 0 gloasBlockContentsFixedLen, contents.blockSsz, contents.envelopeSsz, contents.kzgProofs,
          contents.blobs]) ∧
    (∀ (J : Type) (P : Primitives J) response slot validator prepared format (signature : Hex.Bytes 96),
      response.sszBytes = some bytes → sszBlockFormat response.isBlinded response.consensusVersion = .ok format →
      prepareSsz P response slot validator = .ok prepared →
      ∃ contents published, sszContents bytes format = .ok contents ∧ prepared.publication signature.1 =
          .ok (.publishBlockSsz published response.consensusVersion response.isBlinded response.builderUrl) ∧
        (Holds published signature.1 (blockRegion bytes format) contents ↔ Fits contents) ∧
        (Signs P response.isBlinded prepared.header (blockRegion bytes format) ↔
          CanonicalBlock (blockRegion bytes format))) ∧
    (∀ (J : Type) (P : Primitives J) response slot validator fork prepared envelope (signature : Hex.Bytes 96),
      response.isSsz = true → response.sszBytes = some bytes →
      prepareV4 P response slot validator fork = .ok (prepared, envelope) →
      ∃ block published builderUrl, gloasHeaderAndRoot P block = .ok (prepared.header, prepared.blockRoot) ∧
        prepared.publication signature.1 = .ok (.publishBlockSsz published fork.name false builderUrl) ∧
        readSigned published = some (signature.1, v4Region response.payloadIncluded bytes) ∧
        (blockCodec.Encodes block (v4Region response.payloadIncluded bytes) ↔
          CanonicalBlock (v4Region response.payloadIncluded bytes))) := by
  refine ⟨?_, ?_, ?_, ?_, ?_, ?_⟩
  · intro format block offset h
    exact deserializeBeaconBlockFromSsz_encodes h
  · intro format block offset h
    exact deserializeBlindedBeaconBlockFromSsz_encodes h
  · intro format contents h
    exact deserializeBlockContentsSsz_encodes h
  · intro contents h
    exact deserializeGloasBlockContents_encodes h
  · intro J P response slot validator prepared format signature hbytes hformat h
    exact prepareSsz_published hbytes hformat h signature.2
  · intro J P response slot validator fork prepared envelope signature hssz hbytes h
    exact prepareV4_published hssz hbytes h signature.2

/-! ### A gap -/

theorem fits_of_length {bytes : Bytes} {format : SszBlockFormat} {contents : Option BlockContentsSsz}
    (h : sszContents bytes format = .ok contents) (hlen : 112 + 2 * bytes.length < 2 ^ 32) : Fits contents := by
  cases contents with
  | none => trivial
  | some contents =>
    unfold sszContents at h
    split at h
    · obtain ⟨parsed, hparsed, hcontents⟩ := map_eq_ok.mp h
      cases hcontents
      obtain ⟨rfl, -, -, -, -, hregion, hproofs, -⟩ := deserializeBlockContentsSsz_eq_ok (mapError_eq_ok.mp hparsed)
      rw [Fits, hregion, hproofs, blockRegion, length_slice, length_slice]
      omega
    · cases h

def filledRoot (byte : UInt8) : Root := ⟨List.replicate 32 byte, List.length_replicate⟩

def electraHeader : BeaconBlockHeaderFields :=
  ⟨3000000, 42, filledRoot 0x11, filledRoot 0x22, electraBodyRoot, electraBody, false⟩

theorem published_as_signed_electra :
    ∃ prepared, prepareSsz electraVector (electraResponse (contentsText 12 [] (blockText 3000000 84 []))) 3000000 none =
        .ok prepared ∧ prepared.header = electraHeader ∧
      Signs electraVector false electraHeader (blockText 3000000 84 []) := by
  have hread : (prepareSsz electraVector (electraResponse (contentsText 12 [] (blockText 3000000 84 []))) 3000000
      none).toOption.map Prepared.header = some electraHeader := by
    decide +kernel
  obtain ⟨prepared, hprepared, hheader⟩ := exists_ok_of_toOption hread
  have hregion : blockRegion (contentsText 12 [] (blockText 3000000 84 [])) .blockContents =
      blockText 3000000 84 [] := by
    decide +kernel
  obtain ⟨-, -, -, -, -, hsigns⟩ := (published_as_signed (contentsText 12 [] (blockText 3000000 84 []))).2.2.2.2.1
    Unit electraVector _ 3000000 none prepared .blockContents ⟨List.replicate 96 29, rfl⟩ rfl (by decide) hprepared
  rw [hregion, hheader] at hsigns
  have hcanonical : usizeFromLeBytes (slice (blockText 3000000 84 []) 80 84) = 84 := by decide +kernel
  exact ⟨prepared, hprepared, hheader, hsigns.mpr hcanonical⟩

/-- A gap before the body is signed and published, and the message is the encoding of no block; a gap before the block
is in no region. -/
theorem gap_published :
    (∃ prepared, prepareSsz electraVector (electraResponse (contentsText 12 [] (blockText 3000000 85 [7]))) 3000000
        none = .ok prepared ∧ prepared.header = electraHeader ∧ ∀ signature : Hex.Bytes 96, ∃ contents published,
        prepared.publication signature.1 = .ok (.publishBlockSsz published "electra" false none) ∧
          Holds published signature.1 (blockText 3000000 85 [7]) contents) ∧
    (∀ block : BeaconBlock, ¬ blockCodec.Encodes block (blockText 3000000 85 [7])) ∧
    ∃ contents, deserializeBlockContentsSsz (contentsText 13 [7] (blockText 3000000 84 [])) .blockContents =
        .ok contents ∧
      ¬ Partitions (contentsText 13 [7] (blockText 3000000 84 []))
        (regions (contentsText 13 [7] (blockText 3000000 84 [])) .blockContents) := by
  refine ⟨?_, fun block hencodes => ?_, ?_⟩
  · have hread : (prepareSsz electraVector (electraResponse (contentsText 12 [] (blockText 3000000 85 [7]))) 3000000
        none).toOption.map Prepared.header = some electraHeader := by
      decide +kernel
    obtain ⟨prepared, hprepared, hheader⟩ := exists_ok_of_toOption hread
    have hregion : blockRegion (contentsText 12 [] (blockText 3000000 85 [7])) .blockContents =
        blockText 3000000 85 [7] := by
      decide +kernel
    refine ⟨prepared, hprepared, hheader, fun signature => ?_⟩
    have hformat : sszBlockFormat false "electra" = .ok .blockContents := by decide
    obtain ⟨contents, published, hcontents, hpublication, hholds, -⟩ :=
      prepareSsz_published rfl hformat hprepared signature.2
    rw [hregion] at hholds
    exact ⟨contents, published, hpublication, hholds.mpr (fits_of_length hcontents (by decide +kernel))⟩
  · have hcanonical : CanonicalBlock (blockText 3000000 85 [7]) := by
      rw [← hencodes.1]
      exact canonicalBlock_encode ..
    have hoffset : usizeFromLeBytes (slice (blockText 3000000 85 [7]) 80 84) = 85 := by decide +kernel
    exact absurd (hcanonical.symm.trans hoffset) (by decide)
  · refine ⟨⟨⟨3000000, 42, filledRoot 0x11, filledRoot 0x22, electraBody⟩,
      blockText 3000000 84 [], [], []⟩, by decide +kernel, fun hpartitions => ?_⟩
    obtain ⟨-, -, hfirst, -⟩ := hpartitions.1
    exact absurd hfirst (by decide +kernel)

end Rvc.BlockService
