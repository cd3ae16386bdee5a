import Rvc.EthTypes.Canonical
import Rvc.Lib.Bits
import Rvc.Lib.Merkle
import Rvc.Lib.Slices

/-!
# The root of a bitlist

`eth_types::tree_hash_utils::bitlist_tree_hash_root`: an SSZ `Bitlist[N]` is checked, stripped of its delimiter, and
merkleized over the chunks that `N` bits take, with its length mixed in. The check of the length is in bytes. It lets
pass a text of the greatest length whose delimiter is not the lowest bit of its last byte, and that has more than `N`
bits (`Overlong`); every other text is hashed or refused as the specification has it.

The external crate `tree_hash` is a parameter, and so is the hash of two nodes it computes with; `TreeHashCrate.Pads`
says what is relied on.
-/

namespace Rvc.EthTypes.TreeHash

open Rvc.Lib List UInt8 Nat Bits

abbrev Bytes := List UInt8

/-! ### The crate -/

def chunkAt (bytes : Bytes) (i : Nat) : Root :=
  ⟨(List.range 32).map fun j => bytes.getD (32 * i + j) 0, by rw [List.length_map, List.length_range]⟩

def treeDepth (leaves : Nat) : Nat := Nat.clog 2 leaves

/-- `MerkleHasher` with states in `σ` and errors as their debug texts, and `mix_in_length`. -/
structure TreeHashCrate (σ : Type) where
  withLeaves : Nat → σ
  write : σ → Bytes → Except String σ
  finish : σ → Except String Root
  mixInLength : Root → Nat → Root

/-- `mix_in_length(root, length)` of the specification, with the length as a `uint256`. -/
def specMixInLength (hash : Root → Root → Root) (root : Root) (length : Nat) : Root :=
  hash root ⟨LittleEndian.toBytes 32 length, LittleEndian.length_toBytes 32 length⟩

/-- A hasher rounds its leaves up to a power of two and takes those not written as zero. It does not refuse a chunk
beyond the last leaf. -/
structure TreeHashCrate.Pads {σ : Type} (crate : TreeHashCrate σ) (hash : Root → Root → Root) : Prop where
  written (leaves : Nat) {bytes : Bytes} (hne : bytes ≠ []) (hfits : bytes.length ≤ 32 * 2 ^ treeDepth leaves) :
    (crate.write (crate.withLeaves leaves) bytes >>= crate.finish) =
      .ok (Merkle.treeRoot hash (chunkAt bytes) (treeDepth leaves) 0)
  spilled (leaves : Nat) {bytes : Bytes} (hne : bytes ≠ []) (hover : bytes.length ≤ 32 * (2 ^ treeDepth leaves + 1)) :
    ∃ root, (crate.write (crate.withLeaves leaves) bytes >>= crate.finish) = .ok root
  mixes (root : Root) {length : Nat} (h : length < 2 ^ 64) :
    crate.mixInLength root length = specMixInLength hash root length

variable {σ : Type} (crate : TreeHashCrate σ) (hash : Root → Root → Root)

/-! ### The code -/

structure InvalidBitlist where
  reason : String
  deriving DecidableEq

def bitlistChunkCount (maxBits : Nat) : Nat := max ((maxBits + 255) / 256) 1

def merkleizeToChunkCount (cleanBytes : Bytes) (chunkCount : Nat) : Except InvalidBitlist Root :=
  do
    let hasher := crate.withLeaves chunkCount
    let hasher ← if cleanBytes.isEmpty then .ok hasher else
      (crate.write hasher cleanBytes).mapError fun e => ⟨"bitlist data overflows chunk tree: " ++ e⟩
    (crate.finish hasher).mapError fun e => ⟨"bitlist merkleization failed: " ++ e⟩

def bitlistMaxSszLen (maxBits : Nat) : Nat := maxBits / 8 + 1

def leadingZeros (byte : UInt8) : Nat := if byte = 0 then 8 else 7 - Nat.log2 byte.toNat

/-- The bytes without the delimiter, and without a last byte that has nothing else. -/
def cleanBytes (bytes : Bytes) (sentinelBitPos : Nat) : Bytes :=
  let last := bytes.getLastD 0 &&& ~~~(1 <<< UInt8.ofNat sentinelBitPos)
  if last = 0 ∧ 1 < bytes.length then bytes.dropLast else bytes.dropLast ++ [last]

def bitlistTreeHashRoot (bytes : Bytes) (maxBits : UInt64) : Except InvalidBitlist Root :=
  let chunkCount := bitlistChunkCount maxBits.toNat
  let maxLen := bitlistMaxSszLen maxBits.toNat
  let length := bytes.length
  if maxLen < length then
    .error ⟨s!"bitlist length {length} bytes exceeds Bitlist[{maxBits}] limit of {maxLen} bytes"⟩
  else if bytes.isEmpty then do
    let root ← merkleizeToChunkCount crate [] chunkCount
    .ok (crate.mixInLength root 0)
  else
    let lastByte := bytes.getLastD 0
    if lastByte = 0 then
      .error ⟨"last byte is zero, missing sentinel bit"⟩
    else do
      let sentinelBitPos := 7 - leadingZeros lastByte
      let bitLength := (length - 1) * 8 + sentinelBitPos
      let root ← merkleizeToChunkCount crate (cleanBytes bytes sentinelBitPos) chunkCount
      .ok (crate.mixInLength root bitLength)

/-! ### The specification -/

def serializeBitlist (bits : List Bool) : Bytes := Bits.delimited bits

def packBits (bits : List Bool) : List Root :=
  (List.range ((bits.length + 255) / 256)).map (chunkAt (Bits.pack bits))

/-- `merkleize(chunks, limit)`: padded with zero chunks to a power of two, and hashed layer by layer. -/
def merkleize (chunks : List Root) (limit : Nat) : Root :=
  let padded := chunks ++ List.replicate (2 ^ treeDepth limit - chunks.length) zeroRoot
  (Merkle.layer hash (treeDepth limit) padded).headD zeroRoot

def bitlistRoot (bits : List Bool) (maxBits : Nat) : Root :=
  specMixInLength hash (merkleize hash (packBits bits) (maxBits / 256)) bits.length

/-! ### Stripping the delimiter -/

section

variable {bytes : Bytes} {maxBits : Nat}

theorem sentinelBitPos_eq {byte : UInt8} (h : byte ≠ 0) : 7 - leadingZeros byte = Nat.log2 byte.toNat := by
  have hnonzero : byte.toNat ≠ 0 := fun h' => h (UInt8.toNat_inj.mp h')
  have hlt : log2 byte.toNat < 8 := (log2_lt hnonzero).mpr byte.toNat_lt
  rw [leadingZeros, if_neg h]
  omega

theorem testBit_clear (byte : UInt8) {p j : Nat} (hp : p < 8) (hj : j < 8) :
    (byte &&& ~~~(1 <<< UInt8.ofNat p)).toNat.testBit j = (byte.toNat.testBit j && decide (j ≠ p)) := by
  have hpmod : (UInt8.ofNat p).toNat = p := by
    rw [UInt8.toNat_ofNat']
    omega
  rw [UInt8.toNat_and, testBit_and]
  congr 1
  rw [UInt8.toNat_not, UInt8.toNat_shiftLeft, hpmod, mod_eq_of_lt hp]
  have : ∀ p < 8, ∀ j < 8, (UInt8.size - 1 - (1 : UInt8).toNat <<< p % 2 ^ 8).testBit j = decide (j ≠ p) := by decide
  exact this p hp j hj

theorem getD_cleanBytes (hne : bytes ≠ []) (p i : Nat) : (cleanBytes bytes p).getD i 0 =
      if i + 1 = bytes.length then bytes.getLastD 0 &&& ~~~(1 <<< UInt8.ofNat p) else bytes.getD i 0 := by
  have hpos : 0 < bytes.length := length_pos_of_ne_nil hne
  have hinit : ∀ i, i + 1 ≠ bytes.length → bytes.dropLast.getD i 0 = bytes.getD i 0 := by
    intro i hi
    rw [getD_eq_getElem?_getD, getD_eq_getElem?_getD, getElem?_dropLast]
    split
    · rfl
    · rw [getElem?_eq_none (by omega)]
  unfold cleanBytes
  dsimp only
  split
  · next hzero =>
    split
    · rw [hzero.1, getD_eq_getElem?_getD, getElem?_eq_none (by rw [length_dropLast]; omega)]
      rfl
    · next hi => exact hinit i hi
  · split
    · next hi =>
      rw [getD_append_right _ _ _ _ (by rw [length_dropLast]; omega), length_dropLast,
        show i - (bytes.length - 1) = 0 by omega]
      rfl
    · next hi =>
      by_cases hlt : i < bytes.dropLast.length
      · rw [getD_append _ _ _ _ hlt, hinit i hi]
      · rw [length_dropLast] at hlt
        rw [getD_eq_getElem?_getD, getD_eq_getElem?_getD, getElem?_eq_none, getElem?_eq_none]
        · omega
        · rw [length_append, length_dropLast, length_singleton]
          omega

/-- Without the delimiter that stands where it has to. -/
abbrev stripped (bytes : Bytes) : Bytes := cleanBytes bytes (Nat.log2 (bytes.getLastD 0).toNat)

theorem getD_cleanBytes_eq (hlast : bytes.getLastD 0 ≠ 0) (i : Nat) :
    (stripped bytes).getD i 0 = (Bits.pack (Bits.undelimited bytes)).getD i 0 := by
  have hne : bytes ≠ [] := by
    rintro rfl
    exact hlast rfl
  have hpos : 0 < bytes.length := length_pos_of_ne_nil hne
  have hnonzero : (bytes.getLastD 0).toNat ≠ 0 := fun h => hlast (UInt8.toNat_inj.mp h)
  have hlog : log2 (bytes.getLastD 0).toNat < 8 := (log2_lt hnonzero).mpr (UInt8.toNat_lt _)
  obtain ⟨-, -, hclear⟩ := bitAt_bitLength hlast
  have hlength : bitLength bytes = 8 * (bytes.length - 1) + log2 (bytes.getLastD 0).toNat := rfl
  rw [getD_pack]
  apply byte_ext
  intro j hj
  have hbit : (bytes.getD i 0).toNat.testBit j = bitAt bytes (8 * i + j) := by
    rw [bitAt, show (8 * i + j) / 8 = i by omega, show (8 * i + j) % 8 = j by omega]
  have hbits : (undelimited bytes).getD (8 * i + j) false =
      if 8 * i + j < bitLength bytes then bitAt bytes (8 * i + j) else false := by
    split
    · next hn => exact getD_undelimited hn
    · next hn =>
      rw [getD_eq_getElem?_getD, List.getElem?_eq_none (by rw [length_undelimited]; omega)]
      rfl
  rw [testBit_byteAt _ _ hj, hbits, getD_cleanBytes hne]
  split
  · next hi =>
    rw [testBit_clear _ hlog hj, getLastD_eq, show bytes.length - 1 = i by omega, hbit]
    rw [getLastD_eq, show bytes.length - 1 = i by omega] at hlength
    split
    · next hn => rw [decide_eq_true (by omega), Bool.and_true]
    · next hn =>
      by_cases heq : 8 * i + j = bitLength bytes
      · rw [decide_eq_false (by omega), Bool.and_false]
      · rw [hclear _ (by omega), Bool.false_and]
  · next hi =>
    rw [hbit]
    split
    · rfl
    · exact hclear _ (by omega)

/-! ### Merkleization -/

theorem chunkAt_congr {bytes bytes' : Bytes} (h : ∀ i, bytes.getD i 0 = bytes'.getD i 0) :
    chunkAt bytes = chunkAt bytes' := by
  funext i
  apply Subtype.ext
  simp only [chunkAt, h]

theorem chunkAt_pack_of_le {bits : List Bool} {i : Nat} (h : (bits.length + 255) / 256 ≤ i) :
    chunkAt (Bits.pack bits) i = zeroRoot := by
  apply Subtype.ext
  have hzero : ∀ j, (pack bits).getD (32 * i + j) 0 = 0 := fun j => by
    rw [getD_pack, byteAt_of_length_le (by omega)]
  simp only [chunkAt, hzero]
  rfl

theorem merkleize_packBits (bits : List Bool) {limit : Nat} (h : (bits.length + 255) / 256 ≤ 2 ^ treeDepth limit) :
    merkleize hash (packBits bits) limit =
      Merkle.treeRoot hash (chunkAt (Bits.pack bits)) (treeDepth limit) 0 := by
  have hpadded : packBits bits ++ replicate (2 ^ treeDepth limit - (packBits bits).length) zeroRoot =
      (range (2 ^ treeDepth limit)).map (chunkAt (pack bits)) := by
    have hlen : (packBits bits).length = (bits.length + 255) / 256 := by
      rw [packBits, length_map, length_range]
    refine ext_getElem? fun i => ?_
    rw [getElem?_map]
    by_cases hi : i < (bits.length + 255) / 256
    · rw [getElem?_append_left (by omega), packBits, getElem?_map, getElem?_range hi, getElem?_range (by omega)]
    · rw [getElem?_append_right (by omega), getElem?_replicate]
      split
      · next hin =>
        rw [getElem?_range (by omega), Option.map_some, chunkAt_pack_of_le (by omega)]
      · next hout =>
        rw [getElem?_eq_none (by rw [length_range]; omega)]
        rfl
  rw [merkleize, hpadded, Merkle.layer_map_range]
  rfl

/-! ### The whole -/

/-- The length is the greatest that is let pass, and the delimiter is not the lowest bit of the last byte: the text has
more than `maxBits` bits. -/
def Overlong (maxBits : Nat) (bytes : Bytes) : Prop :=
  bytes.length = bitlistMaxSszLen maxBits ∧ 1 < (bytes.getLastD 0).toNat

section

variable (hlast : bytes.getLastD 0 ≠ 0)

include hlast

theorem bitLength_eq_of_last : Bits.bitLength bytes = 8 * (bytes.length - 1) + Nat.log2 (bytes.getLastD 0).toNat ∧
    0 < bytes.length ∧ Nat.log2 (bytes.getLastD 0).toNat < 8 := by
  have hne : bytes ≠ [] := by
    rintro rfl
    exact hlast rfl
  have hnonzero : (bytes.getLastD 0).toNat ≠ 0 := fun h => hlast (UInt8.toNat_inj.mp h)
  exact ⟨rfl, length_pos_of_ne_nil hne, (log2_lt hnonzero).mpr (UInt8.toNat_lt _)⟩

theorem length_stripped : 0 < (stripped bytes).length ∧ (stripped bytes).length ≤ bytes.length := by
  have hpos := (bitLength_eq_of_last hlast).2.1
  unfold stripped cleanBytes
  dsimp only
  split
  · next hzero =>
    rw [length_dropLast]
    omega
  · rw [length_append, length_dropLast, length_singleton]
    omega

theorem fits_of_not_overlong (hlen : bytes.length ≤ bitlistMaxSszLen maxBits)
    (hdvd : 256 ∣ maxBits) (hpos : 0 < maxBits) (hoverlong : ¬ Overlong maxBits bytes) :
    (stripped bytes).length ≤ maxBits / 8 ∧ Bits.bitLength bytes ≤ maxBits := by
  obtain ⟨hbits, hbytes, hlog⟩ := bitLength_eq_of_last hlast
  have hmax : bitlistMaxSszLen maxBits = maxBits / 8 + 1 := rfl
  by_cases hfull : bytes.length = maxBits / 8 + 1
  · -- the last byte has the delimiter only, and is cut off
    have hone : bytes.getLastD 0 = 1 := by
      have hle : ¬ 1 < (bytes.getLastD 0).toNat := fun h => hoverlong ⟨hfull, h⟩
      have hnonzero : (bytes.getLastD 0).toNat ≠ 0 := fun h => hlast (UInt8.toNat_inj.mp h)
      apply UInt8.toNat_inj.mp
      rw [UInt8.toNat_one]
      omega
    have hclean : stripped bytes = bytes.dropLast := by
      rw [stripped, cleanBytes, hone]
      exact if_pos ⟨by decide, by omega⟩
    rw [hone] at hbits
    have hlog1 : log2 (1 : UInt8).toNat = 0 := by decide
    rw [hclean, length_dropLast]
    omega
  · have hclean := (length_stripped hlast).2
    omega

theorem lt_bitLength_of_overlong (hdvd : 256 ∣ maxBits) (hoverlong : Overlong maxBits bytes) :
    maxBits < Bits.bitLength bytes := by
  obtain ⟨hbits, -, -⟩ := bitLength_eq_of_last hlast
  obtain ⟨hlen, htop⟩ := hoverlong
  have hlog : 1 ≤ log2 (bytes.getLastD 0).toNat := (le_log2 (by omega)).mpr htop
  have hmax : bitlistMaxSszLen maxBits = maxBits / 8 + 1 := rfl
  omega

theorem bitlistTreeHashRoot_eq {maxBits : UInt64} (hlen : bytes.length ≤ bitlistMaxSszLen maxBits.toNat)
    (hpos : 0 < maxBits.toNat) (hdvd : 256 ∣ maxBits.toNat) {root : Root}
    (hroot : (crate.write (crate.withLeaves (maxBits.toNat / 256)) (stripped bytes) >>= crate.finish) = .ok root) :
    bitlistTreeHashRoot crate bytes maxBits = .ok (crate.mixInLength root (Bits.bitLength bytes)) := by
  obtain ⟨hbits, hbytes, -⟩ := bitLength_eq_of_last hlast
  have hclean := length_stripped hlast
  have hcount : bitlistChunkCount maxBits.toNat = maxBits.toNat / 256 := by
    rw [bitlistChunkCount]
    omega
  have hmerkle : merkleizeToChunkCount crate (stripped bytes) (maxBits.toNat / 256) = .ok root := by
    obtain ⟨written, hwrite, hfinish⟩ := bind_eq_ok.mp hroot
    have hne : ¬ (stripped bytes).isEmpty = true := fun h => by
      rw [isEmpty_iff.mp h] at hclean
      exact absurd hclean.1 (lt_irrefl 0)
    unfold merkleizeToChunkCount
    dsimp only
    rw [if_neg hne, hwrite]
    exact congrArg (Except.mapError _) hfinish
  have hlength : (bytes.length - 1) * 8 + log2 (bytes.getLastD 0).toNat = bitLength bytes := by
    rw [hbits, mul_comm]
  have hne : ¬ bytes.isEmpty = true := fun h => by
    rw [isEmpty_iff.mp h] at hbytes
    exact absurd hbytes (lt_irrefl 0)
  unfold bitlistTreeHashRoot
  dsimp only
  rw [if_neg (by omega), if_neg hne, if_neg hlast, sentinelBitPos_eq hlast, hcount, hmerkle, hlength]
  rfl

variable {crate hash}

theorem bitlistTreeHashRoot_eq_bitlistRoot (hpads : crate.Pads hash) {maxBits : UInt64}
    (hlen : bytes.length ≤ bitlistMaxSszLen maxBits.toNat) (hpos : 0 < maxBits.toNat) (hdvd : 256 ∣ maxBits.toNat)
    (hoverlong : ¬ Overlong maxBits.toNat bytes) :
    bitlistTreeHashRoot crate bytes maxBits = .ok (bitlistRoot hash (Bits.undelimited bytes) maxBits.toNat) := by
  obtain ⟨hclean, hbits⟩ := fits_of_not_overlong hlast hlen hdvd hpos hoverlong
  have hroom : maxBits.toNat / 256 ≤ 2 ^ treeDepth (maxBits.toNat / 256) := le_pow_clog (by omega) _
  have hchunks : ((undelimited bytes).length + 255) / 256 ≤ 2 ^ treeDepth (maxBits.toNat / 256) := by
    rw [length_undelimited]
    omega
  have hne := length_pos_iff.mp (length_stripped hlast).1
  have hroot := hpads.written (maxBits.toNat / 256) hne (by omega)
  rw [bitlistTreeHashRoot_eq crate hlast hlen hpos hdvd hroot,
    hpads.mixes _ (lt_of_le_of_lt hbits maxBits.toNat_lt), chunkAt_congr (getD_cleanBytes_eq hlast),
    ← merkleize_packBits hash _ hchunks, bitlistRoot, length_undelimited]

theorem bitlistTreeHashRoot_of_overlong (hpads : crate.Pads hash) {maxBits : UInt64} (hpos : 0 < maxBits.toNat)
    (hdvd : 256 ∣ maxBits.toNat) (hoverlong : Overlong maxBits.toNat bytes) :
    ∃ root, bitlistTreeHashRoot crate bytes maxBits = .ok root := by
  have hroom : maxBits.toNat / 256 ≤ 2 ^ treeDepth (maxBits.toNat / 256) := le_pow_clog (by omega) _
  have hclean := length_stripped hlast
  have hlen : bytes.length = maxBits.toNat / 8 + 1 := hoverlong.1
  obtain ⟨root, hroot⟩ := hpads.spilled (maxBits.toNat / 256) (length_pos_iff.mp hclean.1) (by omega)
  exact ⟨_, bitlistTreeHashRoot_eq crate hlast (le_of_eq hlen) hpos hdvd hroot⟩

end

theorem last_ne_zero_of_ok {crate : TreeHashCrate σ} (hne : bytes ≠ []) {maxBits : UInt64} {root : Root}
    (h : bitlistTreeHashRoot crate bytes maxBits = .ok root) :
    bytes.getLastD 0 ≠ 0 ∧ bytes.length ≤ bitlistMaxSszLen maxBits.toNat := by
  unfold bitlistTreeHashRoot at h
  dsimp only at h
  split at h
  · cases h
  next hlen =>
  rw [if_neg fun h => hne (isEmpty_iff.mp h)] at h
  split at h
  · cases h
  next hlast => exact ⟨hlast, Nat.le_of_not_lt hlen⟩

end

variable {crate hash}

/-- For every limit that is a positive multiple of 256: a text is hashed exactly if it is the SSZ text of a list of at
most that many bits, and to the root the specification gives it, unless it is of the greatest length and has one to
seven bits too many; such a text is always hashed. -/
theorem bitlistTreeHashRoot_eq_ok_iff (hpads : crate.Pads hash) (maxBits : UInt64) (hpos : 0 < maxBits.toNat)
    (hdvd : 256 ∣ maxBits.toNat) (bytes : Bytes) (hne : bytes ≠ []) :
    (∀ root, bitlistTreeHashRoot crate bytes maxBits = .ok root ↔
      ∃ bits, serializeBitlist bits = bytes ∧ bits.length ≤ maxBits.toNat ∧
        root = bitlistRoot hash bits maxBits.toNat) ↔ ¬ Overlong maxBits.toNat bytes := by
  constructor
  · intro hexact hoverlong
    have hlast : bytes.getLastD 0 ≠ 0 := fun h => by
      have htop := hoverlong.2
      rw [h] at htop
      exact absurd htop (by decide)
    obtain ⟨root, hok⟩ := bitlistTreeHashRoot_of_overlong hlast hpads hpos hdvd hoverlong
    obtain ⟨bits, hserialize, hbits, -⟩ := (hexact root).mp hok
    obtain ⟨-, rfl⟩ := delimited_eq_iff.mp hserialize
    rw [length_undelimited] at hbits
    exact absurd (lt_bitLength_of_overlong hlast hdvd hoverlong) (not_lt.mpr hbits)
  · intro hoverlong root
    constructor
    · intro hok
      obtain ⟨hlast, hlen⟩ := last_ne_zero_of_ok hne hok
      rw [bitlistTreeHashRoot_eq_bitlistRoot hlast hpads hlen hpos hdvd hoverlong] at hok
      refine ⟨undelimited bytes, delimited_eq_iff.mpr ⟨hlast, rfl⟩, ?_, (Except.ok.inj hok).symm⟩
      rw [length_undelimited]
      exact (fits_of_not_overlong hlast hlen hdvd hpos hoverlong).2
    · rintro ⟨bits, hserialize, hbits, rfl⟩
      have hlen : bytes.length ≤ bitlistMaxSszLen maxBits.toNat := by
        rw [← hserialize, serializeBitlist, length_delimited, bitlistMaxSszLen]
        omega
      obtain ⟨hlast, rfl⟩ := delimited_eq_iff.mp hserialize
      exact bitlistTreeHashRoot_eq_bitlistRoot hlast hpads hlen hpos hdvd hoverlong

/-- The tree over the chunks written, with what is beyond its leaves left out. -/
def plainCrate (hash : Root → Root → Root) : TreeHashCrate (Nat × Bytes) where
  withLeaves leaves := (leaves, [])
  write state bytes := .ok (state.1, state.2 ++ bytes)
  finish state := .ok (Merkle.treeRoot hash (chunkAt state.2) (treeDepth state.1) 0)
  mixInLength := specMixInLength hash

theorem plainCrate_pads (hash : Root → Root → Root) : (plainCrate hash).Pads hash where
  written _ _ _ _ := rfl
  spilled _ _ _ _ := ⟨_, rfl⟩
  mixes _ _ _ := rfl

theorem bitlistTreeHashRoot_eq_ok_oneBit :
    bitlistTreeHashRoot (plainCrate fun left _ => left) [3] 256 = .ok (bitlistRoot (fun left _ => left) [true] 256) :=
  ((bitlistTreeHashRoot_eq_ok_iff (plainCrate_pads fun left _ => left) 256 (by decide) (by decide) [3]
    (by decide)).mpr (fun h => absurd h.1 (by decide)) _).mpr ⟨[true], by decide, by decide, rfl⟩

/-- 257 clear bits, with the delimiter in the second bit of a byte of their own. -/
def oneBitTooMany : Bytes := List.replicate 32 0 ++ [2]

/-- They are hashed as a `Bitlist[256]`, as 256 clear bits with the length 257 mixed in. -/
theorem overlong_accepted : bitlistTreeHashRoot (plainCrate fun left _ => left) oneBitTooMany 256 =
        .ok (specMixInLength (fun left _ => left) zeroRoot 257) ∧
      ∀ bits, serializeBitlist bits = oneBitTooMany → bits.length = 257 := by
  constructor
  · have hroot : ((plainCrate fun left _ => left).write ((plainCrate fun left _ => left).withLeaves 1)
        (replicate 32 0) >>= (plainCrate fun left _ => left).finish) = .ok zeroRoot := by
      have hdepth : treeDepth 1 = 0 := clog_one_right 2
      refine congrArg Except.ok ?_
      change Merkle.treeRoot (fun left _ => left) (chunkAt (replicate 32 0)) (treeDepth 1) 0 = zeroRoot
      rw [hdepth]
      rfl
    exact bitlistTreeHashRoot_eq _ (by decide) (by decide) (by decide) (by decide) hroot
  · intro bits h
    have hlength := (bitLength_delimited bits).2
    rw [show delimited bits = oneBitTooMany from h] at hlength
    exact hlength.symm.trans (by decide)

end Rvc.EthTypes.TreeHash
