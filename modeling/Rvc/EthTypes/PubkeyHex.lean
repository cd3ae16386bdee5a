import Rvc.EthTypes.Canonical

/-!
# Parsing a public key

`eth_types::canonical::pubkey_hex`: one optional prefix, then exactly 48 bytes of hex. Accepted text has 96 digits, of
either case (`PubkeyText`), so that no accepted text continues another one (`PubkeyText.not_append`).
-/

namespace Rvc.EthTypes

open Rvc.Lib List

abbrev PubkeyHex := Hex.Bytes 48

def parsePubkeyHex (s : String) : Except ParseError PubkeyHex := do
  let hex ← stripPrefix s.toList
  let bytes ← decodeHex (String.ofList hex)
  if h : bytes.length = 48 then .ok ⟨bytes, h⟩ else .error (.invalidLength 48 bytes.length)

def pubkeyToHex (pubkey : PubkeyHex) : List Char := '0' :: 'x' :: (Hex.encode pubkey.1).toList

theorem decodeHex_eq_ok {s : String} {bytes : List UInt8} (h : decodeHex s = .ok bytes) : Hex.decode s = .ok bytes := by
  unfold decodeHex at h
  split at h
  · next hdecode => rw [hdecode, Except.ok.inj h]
  · cases h
  · cases h

theorem parsePubkeyHex_pubkeyToHex (pubkey : PubkeyHex) :
    parsePubkeyHex (String.ofList (pubkeyToHex pubkey)) = .ok pubkey := by
  obtain ⟨bytes, hlen⟩ := pubkey
  rw [parsePubkeyHex, pubkeyToHex, String.toList_ofList]
  refine bind_eq_ok.mpr ⟨_, stripPrefix_encode bytes, bind_eq_ok.mpr ⟨bytes, ?_, dif_pos hlen⟩⟩
  rw [String.ofList_toList, decodeHex_encode]

theorem length_pubkeyToHex (pubkey : PubkeyHex) : (pubkeyToHex pubkey).length = 98 := by
  have hdecode := Hex.decode_encode pubkey.1
  have hlen := (Hex.decode_eq_ok hdecode).1
  rw [pubkey.2] at hlen
  simp only [pubkeyToHex, length_cons, hlen]

/-! ### Accepted text -/

def PubkeyText (text : List Char) : Prop :=
  ∃ digits : List Char, (text = digits ∨ text = '0' :: 'x' :: digits ∨ text = '0' :: 'X' :: digits) ∧
    digits.length = 96 ∧ ∀ c ∈ digits, (Hex.digitValue c).isSome = true

theorem stripPrefix_eq_ok {s rest : List Char} (h : stripPrefix s = .ok rest) :
    s = rest ∨ s = '0' :: 'x' :: rest ∨ s = '0' :: 'X' :: rest := by
  unfold stripPrefix at h
  split at h
  · next hprefix =>
    split at h
    · cases h
    · have hrest := Except.ok.inj h
      unfold startsWithHexPrefix at hprefix
      split at hprefix
      · exact .inr (.inl (by rw [← hrest]; rfl))
      · exact .inr (.inr (by rw [← hrest]; rfl))
      · cases hprefix
  · exact .inl (Except.ok.inj h)

theorem pubkeyText_of_parse {s : String} {pubkey : PubkeyHex} (h : parsePubkeyHex s = .ok pubkey) :
    PubkeyText s.toList := by
  obtain ⟨hex, hstrip, h⟩ := bind_eq_ok.mp h
  obtain ⟨bytes, hdecode, h⟩ := bind_eq_ok.mp h
  split at h
  · next hlen =>
    obtain ⟨hlength, hdigits⟩ := Hex.decode_eq_ok (decodeHex_eq_ok hdecode)
    rw [String.toList_ofList] at hlength hdigits
    exact ⟨hex, stripPrefix_eq_ok hstrip, by omega, hdigits⟩
  · cases h

namespace PubkeyText

variable {text ext : List Char}

theorem length (h : PubkeyText text) : text.length = 96 ∨ text.length = 98 := by
  obtain ⟨digits, rfl | rfl | rfl, hlen, -⟩ := h
  · exact .inl hlen
  · exact .inr (by simp [hlen])
  · exact .inr (by simp [hlen])

theorem second_of_length (h : PubkeyText text) (hlen : text.length = 98) :
    ∃ x digits, text = '0' :: x :: digits ∧ Hex.digitValue x = none := by
  obtain ⟨digits, rfl | rfl | rfl, hdigits, -⟩ := h
  · omega
  · exact ⟨'x', digits, rfl, by decide⟩
  · exact ⟨'X', digits, rfl, by decide⟩

theorem digits_of_length (h : PubkeyText text) (hlen : text.length = 96) :
    ∀ c ∈ text, (Hex.digitValue c).isSome = true := by
  obtain ⟨digits, rfl | rfl | rfl, hdigits, hall⟩ := h
  · exact hall
  · simp only [length_cons] at hlen
    omega
  · simp only [length_cons] at hlen
    omega

theorem not_append (h : PubkeyText text) (hext : ext ≠ []) : ¬ PubkeyText (text ++ ext) := by
  intro happ
  have hpos := length_pos_iff.mpr hext
  have hlen := h.length
  have hlen' := happ.length
  rw [length_append] at hlen'
  have h96 : text.length = 96 := by omega
  obtain ⟨x, digits, heq, hx⟩ := happ.second_of_length (by rw [length_append]; omega)
  match text, h96 with
  | a :: b :: rest, h96 =>
    have hb := h.digits_of_length h96 b (by simp)
    obtain ⟨-, rfl, -⟩ : a = '0' ∧ b = x ∧ rest ++ ext = digits := by simpa using heq
    rw [hx] at hb
    cases hb

end PubkeyText

end Rvc.EthTypes
