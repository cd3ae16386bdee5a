import Rvc.Lib.Except

/-!
# Hex text

`encode` writes two lowercase digits a byte. `decode` accepts both letter cases and fails, as the `hex`
crate does, on an odd number of UTF-8 bytes and on the first character that is not a hex digit. A
decoded text re-encodes to its lowercase form; here only the other direction is needed
(`decode_encode`), that the encoding is injective and free of the letter `x`, and that accepted text is
two digits a byte (`decode_eq_ok`).
-/

namespace Rvc.Lib.Hex

open Except List String

inductive DecodeError where
  | oddLength
  | invalidHexCharacter (index : Nat)
  deriving DecidableEq

abbrev Bytes (n : Nat) := { bytes : List UInt8 // bytes.length = n }

def encodeByte (b : UInt8) : List Char :=
  [Nat.digitChar (b.toNat / 16), Nat.digitChar (b.toNat % 16)]

def encode (bytes : List UInt8) : String := String.ofList (bytes.flatMap encodeByte)

def digitValue (c : Char) : Option Nat :=
  if '0' ≤ c ∧ c ≤ '9' then some (c.toNat - '0'.toNat)
  else if 'a' ≤ c ∧ c ≤ 'f' then some (c.toNat - 'a'.toNat + 10)
  else if 'A' ≤ c ∧ c ≤ 'F' then some (c.toNat - 'A'.toNat + 10)
  else none

/-- The digit at position `index`, or the error that names it. -/
def digitAt (index : Nat) (c : Char) : Except DecodeError Nat :=
  match digitValue c with
  | some v => .ok v
  | none => .error (.invalidHexCharacter index)

/-- Pairs of digits from position `index` on. A last single character is only reached when it is not
ASCII, and then fails. -/
def decodeFrom (index : Nat) : List Char → Except DecodeError (List UInt8)
  | [] => .ok []
  | [a] => do
      let _ ← digitAt index a
      .error .oddLength
  | a :: b :: rest => do
      let hi ← digitAt index a
      let lo ← digitAt (index + 1) b
      let bytes ← decodeFrom (index + 2) rest
      .ok (UInt8.ofNat (16 * hi + lo) :: bytes)

def decode (s : String) : Except DecodeError (List UInt8) :=
  if s.utf8ByteSize % 2 = 1 then .error .oddLength else decodeFrom 0 s.toList

/-! ### Reading back what was written -/

theorem digitValue_digitChar : ∀ n < 16, digitValue (Nat.digitChar n) = some n := by decide

theorem digitChar_ne_x : ∀ n < 16, Nat.digitChar n ≠ 'x' ∧ Nat.digitChar n ≠ 'X' := by decide

theorem digitChar_utf8Size : ∀ n < 16, (Nat.digitChar n).utf8Size = 1 := by decide

theorem toLower_digitChar : ∀ n < 16, (Nat.digitChar n).toLower = Nat.digitChar n := by decide

theorem byte_high_lt (b : UInt8) : b.toNat / 16 < 16 := by
  have := b.toNat_lt
  omega

theorem byte_low_lt (b : UInt8) : b.toNat % 16 < 16 := Nat.mod_lt _ (by decide)

theorem ofNat_high_low (b : UInt8) : UInt8.ofNat (16 * (b.toNat / 16) + b.toNat % 16) = b := by
  rw [Nat.div_add_mod]
  exact UInt8.ofNat_toNat

theorem decodeFrom_encode (bytes : List UInt8) (index : Nat) :
    decodeFrom index (bytes.flatMap encodeByte) = .ok bytes := by
  induction bytes generalizing index with
  | nil => rfl
  | cons b bytes ih =>
    have hhi := digitValue_digitChar _ (byte_high_lt b)
    have hlo := digitValue_digitChar _ (byte_low_lt b)
    show decodeFrom index (_ :: _ :: bytes.flatMap encodeByte) = _
    rw [decodeFrom, digitAt, digitAt, hhi, hlo, ih]
    show ok (UInt8.ofNat _ :: bytes) = _
    rw [ofNat_high_low]

theorem mem_encodeByte {b : UInt8} {c : Char} (h : c ∈ encodeByte b) : ∃ n < 16, c = Nat.digitChar n := by
  simp only [encodeByte, mem_cons, not_mem_nil, or_false] at h
  rcases h with rfl | rfl
  · exact ⟨_, byte_high_lt b, rfl⟩
  · exact ⟨_, byte_low_lt b, rfl⟩

variable {bytes : List UInt8}

theorem mem_encode {c : Char} (h : c ∈ (encode bytes).toList) : ∃ n < 16, c = Nat.digitChar n := by
  rw [encode, toList_ofList, mem_flatMap] at h
  obtain ⟨b, -, hc⟩ := h
  exact mem_encodeByte hc

theorem encode_cons (b : UInt8) (bytes : List UInt8) :
    encode (b :: bytes) = String.singleton (Nat.digitChar (b.toNat / 16)) ++
      (String.singleton (Nat.digitChar (b.toNat % 16)) ++ encode bytes) := by
  simp [encode, encodeByte]

theorem utf8ByteSize_encode (bytes : List UInt8) : (encode bytes).utf8ByteSize = 2 * bytes.length := by
  induction bytes with
  | nil => rfl
  | cons b bytes ih =>
    have hhi := digitChar_utf8Size _ (byte_high_lt b)
    have hlo := digitChar_utf8Size _ (byte_low_lt b)
    rw [encode_cons, utf8ByteSize_append, utf8ByteSize_append,
      utf8ByteSize_singleton, utf8ByteSize_singleton, ih, hhi, hlo, length_cons]
    omega

theorem decode_encode (bytes : List UInt8) : decode (encode bytes) = .ok bytes := by
  have heven : (encode bytes).utf8ByteSize % 2 ≠ 1 := by
    rw [utf8ByteSize_encode]
    omega
  rw [decode, if_neg heven, encode, toList_ofList]
  exact decodeFrom_encode bytes 0

theorem encode_injective : Function.Injective encode := by
  intro left right h
  have hdecode : decode (encode left) = decode (encode right) := by rw [h]
  rw [decode_encode, decode_encode] at hdecode
  exact ok.inj hdecode

/-! ### What is accepted -/

theorem digitAt_eq_ok {index : Nat} {c : Char} {v : Nat} (h : digitAt index c = .ok v) : digitValue c = some v := by
  unfold digitAt at h
  split at h
  · next hv => rw [hv, ok.inj h]
  · cases h

theorem decodeFrom_eq_ok {index : Nat} {s : List Char} (h : decodeFrom index s = .ok bytes) :
    s.length = 2 * bytes.length ∧ ∀ c ∈ s, (digitValue c).isSome = true := by
  induction index, s using decodeFrom.induct generalizing bytes with
  | case1 index =>
    cases h
    simp
  | case2 index a =>
    rw [decodeFrom] at h
    cases hdigit : digitAt index a with
    | error e | ok v => simp [hdigit, bind, Except.bind] at h
  | case3 index a b rest ih =>
    rw [decodeFrom, bind_eq_ok] at h
    obtain ⟨hi, hhi, h⟩ := h
    obtain ⟨lo, hlo, h⟩ := bind_eq_ok.mp h
    obtain ⟨tail, htail, h⟩ := bind_eq_ok.mp h
    cases h
    obtain ⟨hlen, hdigits⟩ := ih htail
    refine ⟨by simp only [List.length_cons]; omega, ?_⟩
    intro c hc
    rcases List.mem_cons.mp hc with rfl | hc
    · rw [digitAt_eq_ok hhi]
      rfl
    · rcases List.mem_cons.mp hc with rfl | hc
      · rw [digitAt_eq_ok hlo]
        rfl
      · exact hdigits c hc

theorem decode_eq_ok {s : String} (h : decode s = .ok bytes) :
    s.toList.length = 2 * bytes.length ∧ ∀ c ∈ s.toList, (digitValue c).isSome = true := by
  unfold decode at h
  split at h
  · cases h
  · exact decodeFrom_eq_ok h

end Rvc.Lib.Hex
