import Rvc.EthTypes.Canonical
import Rvc.Lib.Slices

/-!
# The SSZ helper codecs

`eth_types::ssz_helpers`: blocks, blinded blocks, attestations and sync contributions as SSZ containers with offsets
written by hand. Each decoder is a left inverse of its encoder. The attestation decoder also accepts only what the
encoder writes. The two others accept an offset past the end of the fixed part and ignore the bytes between
(`Canonical` is what they do not check), and so accept texts that no value encodes to.
-/

namespace Rvc.EthTypes.SszHelpers

open Rvc.Lib List LittleEndian UInt32

/-! ### Values -/

abbrev Bytes := List UInt8

structure BeaconBlock where
  slot : UInt64
  proposerIndex : UInt64
  parentRoot : Root
  stateRoot : Root
  body : Bytes
  deriving DecidableEq

structure BlindedBeaconBlock where
  slot : UInt64
  proposerIndex : UInt64
  parentRoot : Root
  stateRoot : Root
  body : Bytes
  deriving DecidableEq

structure Checkpoint where
  epoch : UInt64
  root : Root
  deriving DecidableEq

structure AttestationData where
  slot : UInt64
  index : UInt64
  beaconBlockRoot : Root
  source : Checkpoint
  target : Checkpoint
  deriving DecidableEq

structure Attestation where
  aggregationBits : Bytes
  data : AttestationData
  signature : Bytes
  deriving DecidableEq

structure SyncCommitteeContribution where
  slot : UInt64
  beaconBlockRoot : Root
  subcommitteeIndex : UInt64
  aggregationBits : Bytes
  signature : Bytes
  deriving DecidableEq

inductive SszDecodeError where
  | tooShort (need got : Nat)
  | offsetOutOfRange (offset len : Nat)
  | unknownForkId (forkId : UInt32)
  | invalidEncoding (message : String)
  | electraLayoutUnsupported (forkId : UInt32)
  deriving DecidableEq

def signatureBytesLen : Nat := 96

/-! ### Fields -/

def u64ToLeBytes (n : UInt64) : Bytes := LittleEndian.toBytes 8 n.toNat

def u64FromLeBytes (bytes : Bytes) : UInt64 := UInt64.ofNat (LittleEndian.ofBytes bytes)

def u32ToLeBytes (n : UInt32) : Bytes := LittleEndian.toBytes 4 n.toNat

def usizeFromLeBytes (bytes : Bytes) : Nat := LittleEndian.ofBytes bytes

/-- `bytes.try_into().unwrap()`; all slices it is used on have 32 bytes. -/
def rootFromSlice (bytes : Bytes) : Root := if h : bytes.length = 32 then ⟨bytes, h⟩ else zeroRoot

@[simp] theorem length_u64ToLeBytes (n : UInt64) : (u64ToLeBytes n).length = 8 := LittleEndian.length_toBytes 8 _

@[simp] theorem length_u32ToLeBytes (n : UInt32) : (u32ToLeBytes n).length = 4 := LittleEndian.length_toBytes 4 _

@[simp] theorem length_root (root : Root) : root.1.length = 32 := root.2

@[simp] theorem u64FromLeBytes_u64ToLeBytes (n : UInt64) : u64FromLeBytes (u64ToLeBytes n) = n := by
  rw [u64FromLeBytes, u64ToLeBytes, ofBytes_toBytes_of_lt n.toNat_lt, UInt64.ofNat_toNat]

theorem u64ToLeBytes_slice {bytes : Bytes} {i j : Nat} (hij : i + 8 = j) (hj : j ≤ bytes.length) :
    u64ToLeBytes (u64FromLeBytes (slice bytes i j)) = slice bytes i j := by
  have hlen : (slice bytes i j).length = 8 := by
    rw [length_slice_of_le hj]
    omega
  have hlt : ofBytes (slice bytes i j) < 2 ^ 64 := by
    have := ofBytes_lt (slice bytes i j)
    rw [hlen] at this
    exact this
  rw [u64FromLeBytes, u64ToLeBytes, UInt64.toNat_ofNat', Nat.mod_eq_of_lt hlt, toBytes_ofBytes hlen]

@[simp] theorem usizeFromLeBytes_u32ToLeBytes (n : UInt32) : usizeFromLeBytes (u32ToLeBytes n) = n.toNat :=
  ofBytes_toBytes_of_lt n.toNat_lt

theorem u32ToLeBytes_of_usizeFromLeBytes {bytes : Bytes} (h : bytes.length = 4) {n : UInt32}
    (hn : n.toNat = usizeFromLeBytes bytes) : u32ToLeBytes n = bytes := by
  rw [u32ToLeBytes, hn, usizeFromLeBytes, toBytes_ofBytes h]

@[simp] theorem rootFromSlice_root (root : Root) : rootFromSlice root.1 = root := by
  rw [rootFromSlice, dif_pos root.2]

theorem rootFromSlice_slice {bytes : Bytes} {i j : Nat} (hij : i + 32 = j) (hj : j ≤ bytes.length) :
    (rootFromSlice (slice bytes i j)).1 = slice bytes i j := by
  rw [rootFromSlice, dif_pos (by rw [length_slice_of_le hj]; omega)]

/-! ### Fork ids -/

def validateForkId (forkId : UInt32) : Except SszDecodeError Unit :=
  if forkId ≤ 6 then .ok () else .error (.unknownForkId forkId)

/-! ### Blocks -/

def encodeBeaconBlockInner (slot proposerIndex : UInt64) (parentRoot stateRoot : Root) (body : Bytes) : Bytes :=
  u64ToLeBytes slot ++ u64ToLeBytes proposerIndex ++ parentRoot.1 ++ stateRoot.1 ++ u32ToLeBytes 84 ++ body

abbrev BlockFields := UInt64 × UInt64 × Root × Root × Bytes

section

variable (bytes : Bytes)

def decodeBlockContainer : Except SszDecodeError BlockFields :=
  if bytes.length < 84 then
    .error (.tooShort 84 bytes.length)
  else
    let slot := u64FromLeBytes (slice bytes 0 8)
    let proposerIndex := u64FromLeBytes (slice bytes 8 16)
    let parentRoot := rootFromSlice (slice bytes 16 48)
    let stateRoot := rootFromSlice (slice bytes 48 80)
    let bodyOffset := usizeFromLeBytes (slice bytes 80 84)
    if bodyOffset < 84 ∨ bytes.length < bodyOffset then
      .error (.offsetOutOfRange bodyOffset bytes.length)
    else
      .ok (slot, proposerIndex, parentRoot, stateRoot, bytes.drop bodyOffset)

def encodeBeaconBlockSsz (block : BeaconBlock) (_forkId : UInt32) : Bytes :=
  encodeBeaconBlockInner block.slot block.proposerIndex block.parentRoot block.stateRoot block.body

def decodeBeaconBlockSsz (forkId : UInt32) : Except SszDecodeError BeaconBlock := do
  validateForkId forkId
  let (slot, proposerIndex, parentRoot, stateRoot, body) ← decodeBlockContainer bytes
  .ok ⟨slot, proposerIndex, parentRoot, stateRoot, body⟩

def encodeBlindedBeaconBlockSsz (block : BlindedBeaconBlock) (_forkId : UInt32) : Bytes :=
  encodeBeaconBlockInner block.slot block.proposerIndex block.parentRoot block.stateRoot block.body

def decodeBlindedBeaconBlockSsz (forkId : UInt32) : Except SszDecodeError BlindedBeaconBlock := do
  validateForkId forkId
  let (slot, proposerIndex, parentRoot, stateRoot, body) ← decodeBlockContainer bytes
  .ok ⟨slot, proposerIndex, parentRoot, stateRoot, body⟩

/-! ### Attestations -/

def attestationFixedLen : Nat := 4 + 128 + 4

/-- `AttestationData::as_ssz_bytes`: all fields are of fixed size. -/
def AttestationData.asSszBytes (data : AttestationData) : Bytes :=
  u64ToLeBytes data.slot ++ u64ToLeBytes data.index ++ data.beaconBlockRoot.1 ++ u64ToLeBytes data.source.epoch ++
    data.source.root.1 ++ u64ToLeBytes data.target.epoch ++ data.target.root.1

def AttestationData.fromSszBytes : Except String AttestationData :=
  if bytes.length ≠ 128 then
    let length := bytes.length
    .error s!"InvalidByteLength \x7b len: {length}, expected: 128 \x7d"
  else
    .ok
      { slot := u64FromLeBytes (slice bytes 0 8)
        index := u64FromLeBytes (slice bytes 8 16)
        beaconBlockRoot := rootFromSlice (slice bytes 16 48)
        source := ⟨u64FromLeBytes (slice bytes 48 56), rootFromSlice (slice bytes 56 88)⟩
        target := ⟨u64FromLeBytes (slice bytes 88 96), rootFromSlice (slice bytes 96 128)⟩ }

def encodeAttestationSsz (att : Attestation) (_forkId : UInt32) : Bytes :=
  let dataBytes := att.data.asSszBytes
  let offset1 := UInt32.ofNat (4 + dataBytes.length + 4)
  let offset3 := offset1 + UInt32.ofNat att.aggregationBits.length
  u32ToLeBytes offset1 ++ dataBytes ++ u32ToLeBytes offset3 ++ att.aggregationBits ++ att.signature

def decodeAttestationSsz (forkId : UInt32) : Except SszDecodeError Attestation := do
  validateForkId forkId
  if bytes.length < attestationFixedLen then
    .error (.tooShort attestationFixedLen bytes.length)
  else
    let offset1 := usizeFromLeBytes (slice bytes 0 4)
    let dataBytes := slice bytes 4 132
    let offset3 := usizeFromLeBytes (slice bytes 132 attestationFixedLen)
    if offset1 ≠ attestationFixedLen then
      if attestationFixedLen < offset1 ∧ offset1 ≤ bytes.length then .error (.electraLayoutUnsupported forkId)
      else .error (.offsetOutOfRange offset1 bytes.length)
    else if offset3 < offset1 ∨ bytes.length < offset3 then
      .error (.offsetOutOfRange offset3 bytes.length)
    else if bytes.length - offset3 ≠ signatureBytesLen then
      .error (.electraLayoutUnsupported forkId)
    else
      match AttestationData.fromSszBytes dataBytes with
      | .error e => .error (.invalidEncoding s!"AttestationData: {e}")
      | .ok data => .ok ⟨slice bytes offset1 offset3, data, bytes.drop offset3⟩

/-! ### Sync contributions -/

def encodeSyncCommitteeContributionSsz (contrib : SyncCommitteeContribution) (_forkId : UInt32) : Bytes :=
  let offsetAggbits : UInt32 := 56
  let offsetSig := offsetAggbits + UInt32.ofNat contrib.aggregationBits.length
  u64ToLeBytes contrib.slot ++ contrib.beaconBlockRoot.1 ++ u64ToLeBytes contrib.subcommitteeIndex ++
    u32ToLeBytes offsetAggbits ++ u32ToLeBytes offsetSig ++ contrib.aggregationBits ++ contrib.signature

def decodeSyncCommitteeContributionSsz (forkId : UInt32) : Except SszDecodeError SyncCommitteeContribution := do
  validateForkId forkId
  if bytes.length < 56 then
    .error (.tooShort 56 bytes.length)
  else
    let slot := u64FromLeBytes (slice bytes 0 8)
    let beaconBlockRoot := rootFromSlice (slice bytes 8 40)
    let subcommitteeIndex := u64FromLeBytes (slice bytes 40 48)
    let offsetAggbits := usizeFromLeBytes (slice bytes 48 52)
    let offsetSig := usizeFromLeBytes (slice bytes 52 56)
    if offsetAggbits < 56 ∨ bytes.length < offsetAggbits then
      .error (.offsetOutOfRange offsetAggbits bytes.length)
    else if offsetSig < offsetAggbits ∨ bytes.length < offsetSig then
      .error (.offsetOutOfRange offsetSig bytes.length)
    else
      .ok ⟨slot, beaconBlockRoot, subcommitteeIndex, slice bytes offsetAggbits offsetSig, bytes.drop offsetSig⟩

end

/-! ### Reading what was written -/

variable {bytes : Bytes} {forkId : UInt32}

theorem length_encodeBeaconBlockInner (slot proposerIndex : UInt64) (parentRoot stateRoot : Root) (body : Bytes) :
    (encodeBeaconBlockInner slot proposerIndex parentRoot stateRoot body).length = 84 + body.length := by
  simp only [encodeBeaconBlockInner, length_append, length_u64ToLeBytes, length_u32ToLeBytes, length_root]

/-- The body of an encoded block starts at the end of the fixed part. -/
def CanonicalBlock (bytes : Bytes) : Prop := usizeFromLeBytes (slice bytes 80 84) = 84

section

variable (slot proposerIndex : UInt64) (parentRoot stateRoot : Root) (body : Bytes)

theorem canonicalBlock_encode :
    CanonicalBlock (encodeBeaconBlockInner slot proposerIndex parentRoot stateRoot body) := by
  simp [CanonicalBlock, encodeBeaconBlockInner, slice_append_right, slice_append_self]

theorem decodeBlockContainer_encode :
    decodeBlockContainer (encodeBeaconBlockInner slot proposerIndex parentRoot stateRoot body) =
      .ok (slot, proposerIndex, parentRoot, stateRoot, body) := by
  have hlen := length_encodeBeaconBlockInner slot proposerIndex parentRoot stateRoot body
  have hoffset :
      usizeFromLeBytes (slice (encodeBeaconBlockInner slot proposerIndex parentRoot stateRoot body) 80 84) = 84 :=
    canonicalBlock_encode slot proposerIndex parentRoot stateRoot body
  have hbody : (encodeBeaconBlockInner slot proposerIndex parentRoot stateRoot body).drop 84 = body := by
    exact drop_left' (by simp)
  unfold decodeBlockContainer
  rw [if_neg (by omega)]
  rw [hoffset, if_neg (by omega), hbody]
  simp [encodeBeaconBlockInner, slice_append_right, slice_append_self]

end

theorem AttestationData.length_asSszBytes (data : AttestationData) : data.asSszBytes.length = 128 := by
  simp [asSszBytes]

theorem AttestationData.fromSszBytes_asSszBytes (data : AttestationData) : fromSszBytes data.asSszBytes = .ok data := by
  unfold fromSszBytes
  simp [asSszBytes, slice_append_right, slice_append_self, slice_zero_of_length_le]

theorem offset_toNat {fixed length : Nat} (h : fixed + length < 2 ^ 32) :
    (UInt32.ofNat fixed + UInt32.ofNat length).toNat = fixed + length := by
  rw [← ofNat_add, toNat_ofNat', Nat.mod_eq_of_lt h]

def attestationHead (data : AttestationData) (offset3 : UInt32) : Bytes :=
  u32ToLeBytes 136 ++ data.asSszBytes ++ u32ToLeBytes offset3

theorem length_attestationHead (data : AttestationData) (offset3 : UInt32) :
    (attestationHead data offset3).length = 136 := by
  simp only [attestationHead, length_append, length_u32ToLeBytes, data.length_asSszBytes]

theorem encodeAttestationSsz_eq (att : Attestation) : encodeAttestationSsz att forkId =
      attestationHead att.data (136 + UInt32.ofNat att.aggregationBits.length) ++
        (att.aggregationBits ++ att.signature) := by
  rw [encodeAttestationSsz, att.data.length_asSszBytes, ← append_assoc]
  rfl

theorem decodeAttestationSsz_head (hfork : forkId ≤ 6) (data : AttestationData) (offset3 : UInt32) (rest : Bytes)
    (hle : 136 ≤ offset3.toNat) (hlen : offset3.toNat + 96 = 136 + rest.length) :
    decodeAttestationSsz (attestationHead data offset3 ++ rest) forkId =
      .ok ⟨slice (attestationHead data offset3 ++ rest) 136 offset3.toNat, data,
        (attestationHead data offset3 ++ rest).drop offset3.toNat⟩ := by
  have hhead := length_attestationHead data offset3
  have hlength : (attestationHead data offset3 ++ rest).length = 136 + rest.length := by
    rw [length_append, hhead]
  have hfirst : usizeFromLeBytes (slice (attestationHead data offset3 ++ rest) 0 4) = 136 := by
    simp [attestationHead, slice_append_self]
  have hmiddle : slice (attestationHead data offset3 ++ rest) 4 132 = data.asSszBytes := by
    simp [attestationHead, slice_append_right, slice_append_self, data.length_asSszBytes]
  have hlast : usizeFromLeBytes (slice (attestationHead data offset3 ++ rest) 132 136) = offset3.toNat := by
    rw [slice_append_left (by omega)]
    simp [attestationHead, slice_append_right, slice_zero_of_length_le, data.length_asSszBytes]
  simp only [decodeAttestationSsz, validateForkId, if_pos hfork, attestationFixedLen, signatureBytesLen, bind,
    Except.bind, Nat.reduceAdd, hfirst, hmiddle, hlast, hlength, data.fromSszBytes_asSszBytes]
  rw [if_neg (by omega), if_neg (not_not_intro rfl), if_neg (by omega), if_neg (by omega)]

theorem decodeAttestationSsz_encode (att : Attestation) (hfork : forkId ≤ 6) (hsignature : att.signature.length = 96)
    (hsize : (encodeAttestationSsz att forkId).length < 2 ^ 32) :
    decodeAttestationSsz (encodeAttestationSsz att forkId) forkId = .ok att := by
  have hhead := length_attestationHead att.data (136 + ofNat att.aggregationBits.length)
  rw [encodeAttestationSsz_eq, length_append, length_append, hhead] at hsize
  have hoffset : ((136 : UInt32) + ofNat att.aggregationBits.length).toNat =
      136 + att.aggregationBits.length :=
    @offset_toNat 136 att.aggregationBits.length (by omega)
  rw [encodeAttestationSsz_eq,
    decodeAttestationSsz_head hfork _ _ _ (by omega) (by rw [hoffset, length_append]; omega), hoffset,
    slice_append_middle hhead, drop_append_append hhead]

def contributionHead (slot : UInt64) (beaconBlockRoot : Root) (subcommitteeIndex : UInt64) (offsetSig : UInt32) :
    Bytes :=
  u64ToLeBytes slot ++ beaconBlockRoot.1 ++ u64ToLeBytes subcommitteeIndex ++ u32ToLeBytes 56 ++ u32ToLeBytes offsetSig

theorem length_contributionHead (slot : UInt64) (beaconBlockRoot : Root) (subcommitteeIndex : UInt64)
    (offsetSig : UInt32) : (contributionHead slot beaconBlockRoot subcommitteeIndex offsetSig).length = 56 := by
  simp only [contributionHead, length_append, length_u64ToLeBytes, length_u32ToLeBytes, length_root]

theorem encodeSyncCommitteeContributionSsz_eq (contrib : SyncCommitteeContribution) :
    encodeSyncCommitteeContributionSsz contrib forkId =
      contributionHead contrib.slot contrib.beaconBlockRoot contrib.subcommitteeIndex
        (56 + UInt32.ofNat contrib.aggregationBits.length) ++ (contrib.aggregationBits ++ contrib.signature) := by
  rw [encodeSyncCommitteeContributionSsz, ← append_assoc]
  rfl

theorem decodeSyncCommitteeContributionSsz_head (hfork : forkId ≤ 6) (slot : UInt64) (beaconBlockRoot : Root)
    (subcommitteeIndex : UInt64) (offsetSig : UInt32) (rest : Bytes) (hle : 56 ≤ offsetSig.toNat)
    (hlen : offsetSig.toNat ≤ 56 + rest.length) : decodeSyncCommitteeContributionSsz
        (contributionHead slot beaconBlockRoot subcommitteeIndex offsetSig ++ rest) forkId =
      .ok ⟨slot, beaconBlockRoot, subcommitteeIndex,
        slice (contributionHead slot beaconBlockRoot subcommitteeIndex offsetSig ++ rest) 56 offsetSig.toNat,
        (contributionHead slot beaconBlockRoot subcommitteeIndex offsetSig ++ rest).drop offsetSig.toNat⟩ := by
  have hhead := length_contributionHead slot beaconBlockRoot subcommitteeIndex offsetSig
  generalize hbytes : contributionHead slot beaconBlockRoot subcommitteeIndex offsetSig ++ rest = bytes
  have hlength : bytes.length = 56 + rest.length := by
    rw [← hbytes, length_append, hhead]
  have hfields : slice bytes 0 8 = u64ToLeBytes slot ∧ slice bytes 8 40 = beaconBlockRoot.1 ∧
      slice bytes 40 48 = u64ToLeBytes subcommitteeIndex ∧ slice bytes 48 52 = u32ToLeBytes 56 ∧
      slice bytes 52 56 = u32ToLeBytes offsetSig := by
    simp (disch := omega) only [← hbytes, slice_append_left]
    simp [contributionHead, slice_append_right, slice_append_self, slice_zero_of_length_le]
  obtain ⟨hslot, hroot, hindex, hfirst, hlast⟩ := hfields
  have hfixed : (56 : UInt32).toNat = 56 := rfl
  simp only [decodeSyncCommitteeContributionSsz, validateForkId, if_pos hfork, bind, Except.bind, hslot, hroot, hindex,
    hfirst, hlast, u64FromLeBytes_u64ToLeBytes, rootFromSlice_root, usizeFromLeBytes_u32ToLeBytes, hfixed]
  rw [if_neg (by omega), if_neg (by omega), if_neg (by omega)]

theorem decodeSyncCommitteeContributionSsz_encode (contrib : SyncCommitteeContribution) (hfork : forkId ≤ 6)
    (hsize : (encodeSyncCommitteeContributionSsz contrib forkId).length < 2 ^ 32) :
    decodeSyncCommitteeContributionSsz (encodeSyncCommitteeContributionSsz contrib forkId) forkId = .ok contrib := by
  have hhead := length_contributionHead contrib.slot contrib.beaconBlockRoot contrib.subcommitteeIndex
    (56 + ofNat contrib.aggregationBits.length)
  rw [encodeSyncCommitteeContributionSsz_eq, length_append, length_append, hhead] at hsize
  have hoffset : ((56 : UInt32) + ofNat contrib.aggregationBits.length).toNat =
      56 + contrib.aggregationBits.length :=
    @offset_toNat 56 contrib.aggregationBits.length (by omega)
  rw [encodeSyncCommitteeContributionSsz_eq, decodeSyncCommitteeContributionSsz_head hfork _ _ _ _ _ (by omega)
    (by rw [hoffset, length_append]; omega), hoffset, slice_append_middle hhead, drop_append_append hhead]

/-! ### Writing what was read -/

theorem decodeBlockContainer_eq_ok {fields : BlockFields} (h : decodeBlockContainer bytes = .ok fields) :
    84 ≤ bytes.length ∧ usizeFromLeBytes (slice bytes 80 84) ≤ bytes.length ∧
      fields = (u64FromLeBytes (slice bytes 0 8), u64FromLeBytes (slice bytes 8 16),
        rootFromSlice (slice bytes 16 48), rootFromSlice (slice bytes 48 80),
        bytes.drop (usizeFromLeBytes (slice bytes 80 84))) := by
  unfold decodeBlockContainer at h
  split at h
  · cases h
  · next hshort =>
    dsimp only at h
    split at h
    · cases h
    · next hoffset =>
      cases h
      exact ⟨by omega, by omega, rfl⟩

/-- Both offsets of a contribution are in place if the first is. -/
def CanonicalContribution (bytes : Bytes) : Prop := usizeFromLeBytes (slice bytes 48 52) = 56

theorem encodeBeaconBlockInner_decode (hlen : 84 ≤ bytes.length) (hcanonical : CanonicalBlock bytes) :
    encodeBeaconBlockInner (u64FromLeBytes (slice bytes 0 8)) (u64FromLeBytes (slice bytes 8 16))
        (rootFromSlice (slice bytes 16 48)) (rootFromSlice (slice bytes 48 80))
        (bytes.drop (usizeFromLeBytes (slice bytes 80 84))) = bytes := by
  have hoffset : u32ToLeBytes 84 = slice bytes 80 84 :=
    u32ToLeBytes_of_usizeFromLeBytes (length_slice_of_le (by omega)) hcanonical.symm
  rw [encodeBeaconBlockInner, hoffset, hcanonical]
  simp (disch := omega) only [u64ToLeBytes_slice, rootFromSlice_slice, slice_append_slice, slice_append_drop, drop_zero]

theorem encodeBeaconBlockInner_eq_iff {fields : BlockFields} (h : decodeBlockContainer bytes = .ok fields) :
    encodeBeaconBlockInner fields.1 fields.2.1 fields.2.2.1 fields.2.2.2.1 fields.2.2.2.2 = bytes ↔
      CanonicalBlock bytes := by
  obtain ⟨hlen, -, rfl⟩ := decodeBlockContainer_eq_ok h
  refine ⟨fun hbytes => ?_, encodeBeaconBlockInner_decode hlen⟩
  rw [← hbytes]
  exact canonicalBlock_encode ..

theorem AttestationData.asSszBytes_of_fromSszBytes {data : AttestationData} (h : fromSszBytes bytes = .ok data) :
    data.asSszBytes = bytes := by
  unfold fromSszBytes at h
  split at h
  · cases h
  · next hlen =>
    cases h
    simp (disch := omega) only [asSszBytes, u64ToLeBytes_slice, rootFromSlice_slice, slice_append_slice,
      slice_zero_of_length_le]

theorem u32ToLeBytes_offset {fixed : Nat} (hlen : bytes.length = 4) (hle : fixed ≤ usizeFromLeBytes bytes) :
    u32ToLeBytes (UInt32.ofNat fixed + UInt32.ofNat (usizeFromLeBytes bytes - fixed)) = bytes := by
  have hsmall : usizeFromLeBytes bytes < 2 ^ 32 := by
    have := ofBytes_lt bytes
    rw [hlen] at this
    exact this
  refine u32ToLeBytes_of_usizeFromLeBytes hlen ?_
  rw [offset_toNat (by omega), Nat.add_sub_cancel' hle]

theorem decodeAttestationSsz_eq_ok {att : Attestation} (h : decodeAttestationSsz bytes forkId = .ok att) :
    136 ≤ bytes.length ∧ usizeFromLeBytes (slice bytes 0 4) = 136 ∧ 136 ≤ usizeFromLeBytes (slice bytes 132 136) ∧
      usizeFromLeBytes (slice bytes 132 136) ≤ bytes.length ∧
      AttestationData.fromSszBytes (slice bytes 4 132) = .ok att.data ∧
      att.aggregationBits = slice bytes 136 (usizeFromLeBytes (slice bytes 132 136)) ∧
      att.signature = bytes.drop (usizeFromLeBytes (slice bytes 132 136)) := by
  obtain ⟨-, -, h⟩ := bind_eq_ok.mp h
  have hfixed : attestationFixedLen = 136 := rfl
  split at h
  · cases h
  · next hshort =>
    dsimp only at h
    split at h
    · split at h <;> cases h
    · next hfirst =>
      have hfirst := not_not.mp hfirst
      rw [hfirst] at h
      split at h
      · cases h
      · next hlast =>
        split at h
        · cases h
        · split at h
          · cases h
          · next data hdata =>
            cases h
            rw [hfixed] at hshort hfirst hlast
            exact ⟨by omega, hfirst, by omega, by omega, hdata, rfl, rfl⟩

theorem encodeAttestationSsz_of_decode {att : Attestation} (h : decodeAttestationSsz bytes forkId = .ok att) :
    encodeAttestationSsz att forkId = bytes := by
  obtain ⟨hlen, hfirst, hle, hlast, hdata, hbits, hsignature⟩ := decodeAttestationSsz_eq_ok h
  have hhead : u32ToLeBytes 136 = slice bytes 0 4 :=
    u32ToLeBytes_of_usizeFromLeBytes (length_slice_of_le (by omega)) hfirst.symm
  have hoffset : u32ToLeBytes (136 + ofNat att.aggregationBits.length) = slice bytes 132 136 := by
    rw [hbits, length_slice_of_le hlast]
    exact u32ToLeBytes_offset (length_slice_of_le hlen) hle
  rw [encodeAttestationSsz_eq, attestationHead, hhead, AttestationData.asSszBytes_of_fromSszBytes hdata, hoffset, hbits,
    hsignature]
  simp (disch := omega) only [slice_append_slice, slice_append_drop, drop_zero]

theorem decodeSyncCommitteeContributionSsz_eq_ok {contrib : SyncCommitteeContribution}
    (h : decodeSyncCommitteeContributionSsz bytes forkId = .ok contrib) :
    56 ≤ bytes.length ∧ 56 ≤ usizeFromLeBytes (slice bytes 48 52) ∧
      usizeFromLeBytes (slice bytes 48 52) ≤ usizeFromLeBytes (slice bytes 52 56) ∧
      usizeFromLeBytes (slice bytes 52 56) ≤ bytes.length ∧
      contrib = ⟨u64FromLeBytes (slice bytes 0 8), rootFromSlice (slice bytes 8 40), u64FromLeBytes (slice bytes 40 48),
        slice bytes (usizeFromLeBytes (slice bytes 48 52)) (usizeFromLeBytes (slice bytes 52 56)),
        bytes.drop (usizeFromLeBytes (slice bytes 52 56))⟩ := by
  obtain ⟨-, -, h⟩ := bind_eq_ok.mp h
  dsimp only at h
  split at h
  · cases h
  · next hshort =>
    split at h
    · cases h
    · next hfirst =>
      split at h
      · cases h
      · next hlast =>
        cases h
        exact ⟨by omega, by omega, by omega, by omega, rfl⟩

theorem canonicalContribution_encode (contrib : SyncCommitteeContribution) (forkId : UInt32) :
    CanonicalContribution (encodeSyncCommitteeContributionSsz contrib forkId) := by
  rw [CanonicalContribution, encodeSyncCommitteeContributionSsz_eq,
    slice_append_left (by rw [length_contributionHead]; omega)]
  simp [contributionHead, slice_append_right, slice_append_self]

theorem encodeSyncCommitteeContributionSsz_of_decode {contrib : SyncCommitteeContribution}
    (hcanonical : CanonicalContribution bytes) (h : decodeSyncCommitteeContributionSsz bytes forkId = .ok contrib) :
    encodeSyncCommitteeContributionSsz contrib forkId = bytes := by
  obtain ⟨hlen, -, hle, hlast, hcontrib⟩ := decodeSyncCommitteeContributionSsz_eq_ok h
  rw [hcanonical] at hle hcontrib
  have hfirst : u32ToLeBytes 56 = slice bytes 48 52 :=
    u32ToLeBytes_of_usizeFromLeBytes (length_slice_of_le (by omega)) hcanonical.symm
  have hoffset : u32ToLeBytes (56 + ofNat contrib.aggregationBits.length) = slice bytes 52 56 := by
    rw [hcontrib, length_slice_of_le hlast]
    exact u32ToLeBytes_offset (length_slice_of_le hlen) hle
  rw [encodeSyncCommitteeContributionSsz_eq, contributionHead, hoffset, hfirst, hcontrib]
  simp (disch := omega) only [u64ToLeBytes_slice, rootFromSlice_slice, slice_append_slice, slice_append_drop, drop_zero]

/-! ### The codecs -/

structure Codec (α : Type) where
  encode : α → UInt32 → Bytes
  decode : Bytes → UInt32 → Except SszDecodeError α

def blockCodec : Codec BeaconBlock := ⟨encodeBeaconBlockSsz, decodeBeaconBlockSsz⟩

def blindedBlockCodec : Codec BlindedBeaconBlock := ⟨encodeBlindedBeaconBlockSsz, decodeBlindedBeaconBlockSsz⟩

def attestationCodec : Codec Attestation := ⟨encodeAttestationSsz, decodeAttestationSsz⟩

def contributionCodec : Codec SyncCommitteeContribution :=
  ⟨encodeSyncCommitteeContributionSsz, decodeSyncCommitteeContributionSsz⟩

/-- The bytes are the encoding of the value, and decode to it. -/
def Codec.Encodes {α : Type} (codec : Codec α) (v : α) (bytes : Bytes) : Prop :=
  codec.encode v 0 = bytes ∧ codec.decode bytes 0 = .ok v

/-- Every value that is sent is read back: those whose signature has its 96 bytes and whose text has a length that
offsets can express. -/
def Codec.ReadsBack {α : Type} (codec : Codec α) (forkId : UInt32) (signature : α → Option Bytes) : Prop :=
  ∀ v, forkId ≤ 6 → (∀ sig ∈ signature v, sig.length = 96) → (codec.encode v forkId).length < 2 ^ 32 →
    codec.decode (codec.encode v forkId) forkId = .ok v

/-- Those of the texts that are accepted which their values encode to are those with the condition. -/
def Codec.Strict {α : Type} (codec : Codec α) (forkId : UInt32) (condition : Bytes → Prop) : Prop :=
  ∀ bytes v, codec.decode bytes forkId = .ok v → (codec.encode v forkId = bytes ↔ condition bytes)

theorem validateForkId_eq_ok (h : forkId ≤ 6) : validateForkId forkId = .ok () := if_pos h

/-- The helpers are inverse to each other, on texts whose variable parts start at the end of the fixed part and on no
others; the attestation decoder accepts no others. -/
theorem codecs_inverse (forkId : UInt32) :
    blockCodec.ReadsBack forkId (fun _ => none) ∧ blockCodec.Strict forkId CanonicalBlock ∧
      blindedBlockCodec.ReadsBack forkId (fun _ => none) ∧ blindedBlockCodec.Strict forkId CanonicalBlock ∧
      attestationCodec.ReadsBack forkId (fun att => some att.signature) ∧
      attestationCodec.Strict forkId (fun _ => True) ∧
      contributionCodec.ReadsBack forkId (fun contrib => some contrib.signature) ∧
      contributionCodec.Strict forkId CanonicalContribution := by
  refine ⟨?_, ?_, ?_, ?_, ?_, ?_, ?_, ?_⟩
  · intro block hfork _ _
    refine bind_eq_ok.mpr ⟨(), validateForkId_eq_ok hfork, bind_eq_ok.mpr ⟨_, decodeBlockContainer_encode .., rfl⟩⟩
  · intro bytes block h
    obtain ⟨-, -, h⟩ := bind_eq_ok.mp h
    obtain ⟨fields, hfields, h⟩ := bind_eq_ok.mp h
    cases h
    exact encodeBeaconBlockInner_eq_iff hfields
  · intro block hfork _ _
    refine bind_eq_ok.mpr ⟨(), validateForkId_eq_ok hfork, bind_eq_ok.mpr ⟨_, decodeBlockContainer_encode .., rfl⟩⟩
  · intro bytes block h
    obtain ⟨-, -, h⟩ := bind_eq_ok.mp h
    obtain ⟨fields, hfields, h⟩ := bind_eq_ok.mp h
    cases h
    exact encodeBeaconBlockInner_eq_iff hfields
  · intro att hfork hsignature hsize
    dsimp only [attestationCodec] at hsize ⊢
    exact decodeAttestationSsz_encode att hfork (hsignature att.signature rfl) hsize
  · intro bytes att h
    exact iff_of_true (encodeAttestationSsz_of_decode h) trivial
  · intro contrib hfork _ hsize
    exact decodeSyncCommitteeContributionSsz_encode contrib hfork hsize
  · intro bytes contrib h
    refine ⟨fun hbytes => ?_, fun hcanonical => encodeSyncCommitteeContributionSsz_of_decode hcanonical h⟩
    rw [← hbytes]
    exact canonicalContribution_encode contrib forkId

/-- A block whose fields are zero, with its body at `offset`. -/
def zeroBlockText (offset : UInt8) (rest : Bytes) : Bytes := List.replicate 80 0 ++ [offset, 0, 0, 0] ++ rest

/-- The same of a contribution with no bits and no signature. -/
def zeroContributionText (offset : UInt8) (rest : Bytes) : Bytes :=
  List.replicate 48 0 ++ [offset, 0, 0, 0] ++ [offset, 0, 0, 0] ++ rest

def zeroBlock (body : Bytes) : BeaconBlock := ⟨0, 0, zeroRoot, zeroRoot, body⟩

def zeroContribution (signature : Bytes) : SyncCommitteeContribution := ⟨0, zeroRoot, 0, [], signature⟩

theorem codecs_inverse_zeroBlock : decodeBeaconBlockSsz (zeroBlockText 84 [9]) 0 = .ok (zeroBlock [9]) ∧
      encodeBeaconBlockSsz (zeroBlock [9]) 0 = zeroBlockText 84 [9] := by
  have hdecode : decodeBeaconBlockSsz (zeroBlockText 84 [9]) 0 = .ok (zeroBlock [9]) := by rfl
  have hcanonical : CanonicalBlock (zeroBlockText 84 [9]) := by rfl
  exact ⟨hdecode, ((codecs_inverse 0).2.1 (zeroBlockText 84 [9]) (zeroBlock [9]) hdecode).mpr hcanonical⟩

/-- The byte before the body is ignored, and lost when the value is written again. -/
theorem gap_accepted : decodeBeaconBlockSsz (zeroBlockText 85 [7]) 0 = .ok (zeroBlock []) ∧
      encodeBeaconBlockSsz (zeroBlock []) 0 ≠ zeroBlockText 85 [7] ∧
      decodeSyncCommitteeContributionSsz (zeroContributionText 57 [7]) 0 = .ok (zeroContribution []) ∧
      encodeSyncCommitteeContributionSsz (zeroContribution []) 0 ≠ zeroContributionText 57 [7] := by
  have hblock : decodeBeaconBlockSsz (zeroBlockText 85 [7]) 0 = .ok (zeroBlock []) := by rfl
  have hcontribution :
      decodeSyncCommitteeContributionSsz (zeroContributionText 57 [7]) 0 = .ok (zeroContribution []) := by rfl
  refine ⟨hblock, fun h => ?_, hcontribution, fun h => ?_⟩
  · have := congrArg List.length h
    simp [encodeBeaconBlockSsz, length_encodeBeaconBlockInner, zeroBlock, zeroBlockText] at this
  · have := congrArg List.length h
    simp [encodeSyncCommitteeContributionSsz_eq, length_contributionHead, zeroContribution,
      zeroContributionText] at this

end Rvc.EthTypes.SszHelpers
