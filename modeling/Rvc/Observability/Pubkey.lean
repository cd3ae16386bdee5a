import Rvc.Lib.Hex

/-!
# Canonical public-key text

`CanonicalPubkey` is the one form under which a key is stored and looked up: `0x` and lowercase
digits. Normalising strips at most one prefix, so it is idempotent (`normalizePubkey_idem`), and on the
bare hex of two keys it is injective (`normalizePubkey_encode_inj`).
-/

namespace Rvc.Observability

open Rvc.Lib String Hex

/-- `s.strip_prefix("0x").or_else(|| s.strip_prefix("0X")).unwrap_or(s)`. -/
def stripHexPrefix : List Char → List Char
  | '0' :: 'x' :: rest => rest
  | '0' :: 'X' :: rest => rest
  | cs => cs

/-- What is used of `to_lowercase`: done twice it is as done once, and lowercase hex stays as it is. -/
structure Lowercasing where
  lower : List Char → List Char
  lower_lower : ∀ cs, lower (lower cs) = lower cs
  lower_hex : ∀ bytes, lower (Hex.encode bytes).toList = (Hex.encode bytes).toList

/-- `CanonicalPubkey::from_str`, which accepts every text. -/
def Lowercasing.normalize (l : Lowercasing) (s : String) : String :=
  String.ofList ('0' :: 'x' :: l.lower (stripHexPrefix s.toList))

theorem stripHexPrefix_of_no_x {cs : List Char} (h : ∀ c ∈ cs, c ≠ 'x' ∧ c ≠ 'X') : stripHexPrefix cs = cs := by
  unfold stripHexPrefix
  split
  · exact absurd rfl (h 'x' (by simp)).1
  · exact absurd rfl (h 'X' (by simp)).2
  · rfl

namespace Lowercasing

variable (l : Lowercasing)

theorem normalize_idem (s : String) : l.normalize (l.normalize s) = l.normalize s := by
  unfold normalize
  rw [toList_ofList]
  show ofList ('0' :: 'x' :: l.lower (l.lower (stripHexPrefix s.toList))) = _
  rw [l.lower_lower]

theorem normalize_encode (bytes : List UInt8) :
    l.normalize (Hex.encode bytes) = String.ofList ('0' :: 'x' :: (Hex.encode bytes).toList) := by
  have hno : ∀ c ∈ (encode bytes).toList, c ≠ 'x' ∧ c ≠ 'X' := by
    intro c hc
    obtain ⟨n, hn, rfl⟩ := mem_encode hc
    exact digitChar_ne_x n hn
  rw [normalize, stripHexPrefix_of_no_x hno, l.lower_hex]

end Lowercasing

/-! ### Lowercasing -/

theorem toLower_toLower (c : Char) : c.toLower.toLower = c.toLower := by
  delta Char.toLower
  split
  · next h =>
    -- an uppercase letter moves up by 32 and lands beyond `Z`
    obtain ⟨hlow, hhigh⟩ := h
    rw [dif_neg]
    rintro ⟨-, hagain⟩
    simp only [UInt32.le_iff_toNat_le, ge_iff_le, UInt32.toNat_add] at hlow hhigh hagain
    simp at hlow hhigh hagain
    omega
  · rfl

theorem map_toLower_encode (bytes : List UInt8) :
    (Hex.encode bytes).toList.map Char.toLower = (Hex.encode bytes).toList := by
  refine (List.map_congr_left fun c hc => ?_).trans (List.map_id _)
  obtain ⟨n, hn, rfl⟩ := mem_encode hc
  exact toLower_digitChar n hn

/-- On ASCII, as the text of a key is. -/
def asciiLowercasing : Lowercasing where
  lower cs := cs.map Char.toLower
  lower_lower cs := by
    rw [List.map_map]
    exact List.map_congr_left fun c _ => toLower_toLower c
  lower_hex := map_toLower_encode

/-- The form that the stores use. It is irreducible: what is proved with it is proved from the two lemmas below, which
every lowercasing has. -/
@[irreducible] def normalizePubkey (s : String) : String := asciiLowercasing.normalize s

theorem normalizePubkey_idem (s : String) : normalizePubkey (normalizePubkey s) = normalizePubkey s := by
  unfold normalizePubkey
  exact asciiLowercasing.normalize_idem s

theorem normalizePubkey_encode (bytes : List UInt8) :
    normalizePubkey (Hex.encode bytes) = String.ofList ('0' :: 'x' :: (Hex.encode bytes).toList) := by
  unfold normalizePubkey
  exact asciiLowercasing.normalize_encode bytes

theorem normalizePubkey_encode_inj {left right : List UInt8}
    (h : normalizePubkey (Hex.encode left) = normalizePubkey (Hex.encode right)) : left = right := by
  rw [normalizePubkey_encode, normalizePubkey_encode] at h
  have hlist := congrArg toList h
  simp only [toList_ofList, List.cons.injEq, true_and, toList_inj] at hlist
  exact encode_injective hlist

end Rvc.Observability
