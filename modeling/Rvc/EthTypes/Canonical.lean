import Rvc.Lib.Hex

/-!
# Parsing and writing a genesis validators root

`eth_types::canonical`: one optional `0x`/`0X` prefix, never two, then exactly 32 bytes of hex. The text
this crate writes itself is `0x` and lowercase, and parses back to the root (`parseGvrHex_rootToHex`).
-/

namespace Rvc.EthTypes

open Rvc.Lib

abbrev Root := Hex.Bytes 32

def zeroRoot : Root := ⟨List.replicate 32 0, by simp⟩

inductive ParseError where
  | invalidHex (detail : String)
  | invalidLength (expected got : Nat)
  | doublePrefix
  deriving DecidableEq

def startsWithHexPrefix : List Char → Bool
  | '0' :: 'x' :: _ => true
  | '0' :: 'X' :: _ => true
  | _ => false

def stripPrefix (s : List Char) : Except ParseError (List Char) :=
  if startsWithHexPrefix s then
    if startsWithHexPrefix (s.drop 2) then .error .doublePrefix else .ok (s.drop 2)
  else
    .ok s

/-- `pubkey_hex::decode_hex`: the messages leave out the offending character. -/
def decodeHex (s : String) : Except ParseError (List UInt8) :=
  match Hex.decode s with
  | .ok bytes => .ok bytes
  | .error .oddLength => .error (.invalidHex "odd number of hex digits")
  | .error (.invalidHexCharacter index) => .error (.invalidHex s!"non-hex character at index {index}")

def parseGvrHex (s : String) : Except ParseError Root := do
  let hex ← stripPrefix s.toList
  let bytes ← decodeHex (String.ofList hex)
  if h : bytes.length = 32 then .ok ⟨bytes, h⟩ else .error (.invalidLength 32 bytes.length)

def rootToHex (root : Root) : String := String.ofList ('0' :: 'x' :: (Hex.encode root.1).toList)

theorem startsWithHexPrefix_encode (bytes : List UInt8) : startsWithHexPrefix (Hex.encode bytes).toList = false := by
  have hno : ∀ c ∈ (Hex.encode bytes).toList, c ≠ 'x' ∧ c ≠ 'X' := by
    intro c hc
    obtain ⟨n, hn, rfl⟩ := Hex.mem_encode hc
    exact Hex.digitChar_ne_x n hn
  unfold startsWithHexPrefix
  split
  · next heq => exact absurd rfl (hno 'x' (by simp [heq])).1
  · next heq => exact absurd rfl (hno 'X' (by simp [heq])).2
  · rfl

theorem decodeHex_encode (bytes : List UInt8) : decodeHex (Hex.encode bytes) = .ok bytes := by
  rw [decodeHex, Hex.decode_encode]

theorem stripPrefix_encode (bytes : List UInt8) :
    stripPrefix ('0' :: 'x' :: (Hex.encode bytes).toList) = .ok (Hex.encode bytes).toList := by
  have hfirst : startsWithHexPrefix ('0' :: 'x' :: (Hex.encode bytes).toList) = true := rfl
  rw [stripPrefix, if_pos hfirst, List.drop_succ_cons, List.drop_succ_cons, List.drop_zero, startsWithHexPrefix_encode]
  rfl

theorem parseGvrHex_rootToHex (root : Root) : parseGvrHex (rootToHex root) = .ok root := by
  obtain ⟨bytes, hlen⟩ := root
  rw [parseGvrHex, rootToHex, String.toList_ofList]
  refine bind_eq_ok.mpr ⟨_, stripPrefix_encode bytes, bind_eq_ok.mpr ⟨bytes, ?_, dif_pos hlen⟩⟩
  rw [String.ofList_toList, decodeHex_encode]

end Rvc.EthTypes
