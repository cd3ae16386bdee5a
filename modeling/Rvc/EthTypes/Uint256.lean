import Rvc.EthTypes.Canonical
import Rvc.Lib.Radix

/-!
# Decimal text of a 256-bit number

`beacon_api_json::uint256`: the beacon API spells a `Uint256` as a decimal text, and the code holds it as 32 bytes, the
least significant one first. Both directions work on the bytes, by long division by ten and by multiplication by ten,
with the sixteen bit arithmetic of the source. They are inverse to each other, and the reader takes every text of
digits, with leading zeros or without, whose number fits.
-/

namespace Rvc.EthTypes.Uint256

open Rvc.Lib Rvc.Lib.Radix List Nat UInt16 UInt8 Bool

def toNat (le : Hex.Bytes 32) : ℕ := Nat.ofDigits 256 (le.1.map UInt8.toNat)

theorem value_reverse (le : Hex.Bytes 32) : value le.1.reverse = toNat le := by
  rw [value, reverse_reverse, toNat]

theorem toNat_lt (le : Hex.Bytes 32) : toNat le < 2 ^ 256 := by
  have hlt := value_lt le.1.reverse
  rw [value_reverse, length_reverse, le.2] at hlt
  exact lt_of_lt_of_eq hlt (by norm_num)

theorem toNat_inj {a b : Hex.Bytes 32} (h : toNat a = toNat b) : a = b := by
  rw [← value_reverse, ← value_reverse] at h
  have hreverse := value_inj (by simp [a.2, b.2]) h
  exact Subtype.ext (reverse_injective hreverse)

/-! ### Writing -/

def divStep (rem : UInt16) (byte : UInt8) : UInt8 × UInt16 :=
  let cur := (rem <<< 8) ||| byte.toUInt16
  ((cur / 10).toUInt8, cur % 10)

theorem toNat_divStep {rem : UInt16} (hrem : rem.toNat < 10) (byte : UInt8) :
    ((rem <<< 8) ||| byte.toUInt16).toNat = 256 * rem.toNat + byte.toNat := by
  have hbyte := byte.toNat_lt
  have hshift : rem.toNat <<< 8 = 256 * rem.toNat := by rw [shiftLeft_eq]; omega
  have hor := shiftLeft_add_eq_or_of_lt (i := 8) hbyte rem.toNat
  have hmod : rem.toNat <<< 8 % 2 ^ 16 = rem.toNat <<< 8 := mod_eq_of_lt (by omega)
  show rem.toNat <<< 8 % 2 ^ 16 ||| byte.toNat = _
  rw [hmod, ← hor, hshift]

theorem divStep_exact (rem : UInt16) (byte : UInt8) (hrem : rem.toNat < 10) : (divStep rem byte).2.toNat < 10 ∧
      10 * (divStep rem byte).1.toNat + (divStep rem byte).2.toNat = 256 * rem.toNat + byte.toNat := by
  have hcur := toNat_divStep hrem byte
  have hbyte := byte.toNat_lt
  simp only [divStep, UInt16.toNat_toUInt8, UInt16.toNat_div, UInt16.toNat_mod, hcur, UInt16.reduceToNat]
  omega

/-- One turn of the outer loop: the bytes divided by ten, and the remainder. -/
def divTen (be : List UInt8) : List UInt8 × UInt16 := passDown divStep 0 be

theorem divTen_exact (be : List UInt8) :
    (divTen be).2.toNat < 10 ∧ 10 * value (divTen be).1 + (divTen be).2.toNat = value be := by
  have hzero : (0 : UInt16).toNat < 10 := by decide
  have hpass := value_passDown divStep_exact hzero be
  simpa [divTen] using hpass

theorem value_divTen_lt {be : List UInt8} (h : be.any (· != 0) = true) : value (divTen be).1 < value be := by
  have hne : value be ≠ 0 := fun hzero => by
    obtain ⟨byte, hmem, hbyte⟩ := any_eq_true.mp h
    simp [value_eq_zero_iff.mp hzero byte hmem] at hbyte
  have hexact := (divTen_exact be).2
  omega

/-- The outer loop, which pushes the digits from the last to the first. -/
def pushDigits (be : List UInt8) (digits : List Char) : List Char :=
  if be.any (· != 0) then
    pushDigits (divTen be).1 (digits ++ [Char.ofUInt8 (48 + (divTen be).2.toUInt8)])
  else digits
termination_by value be
decreasing_by exact value_divTen_lt ‹_›

def toDecimal (le : Hex.Bytes 32) : String :=
  if le.1.all (· == 0) then "0" else String.ofList (pushDigits le.1.reverse []).reverse

theorem digitChar_eq {rem : UInt16} (h : rem.toNat < 10) : Char.ofUInt8 (48 + rem.toUInt8) = rem.toNat.digitChar := by
  have hall : ∀ n < 10, Char.ofUInt8 (48 + (UInt16.ofNat n).toUInt8) = n.digitChar := by decide
  have hdigit := hall rem.toNat h
  rwa [UInt16.ofNat_toNat] at hdigit

theorem pushDigits_eq (be : List UInt8) (digits : List Char) (h : value be ≠ 0) :
    pushDigits be digits = digits ++ (Nat.toDigits 10 (value be)).reverse := by
  obtain ⟨hrem, hexact⟩ := divTen_exact be
  have hany : be.any (· != 0) = true := by
    by_contra hnone
    exact h (value_eq_zero_iff.mpr (by simpa using hnone))
  rw [pushDigits, if_pos hany, digitChar_eq hrem]
  have hmod : value be % 10 = (divTen be).2.toNat := by omega
  have hdiv : value be / 10 = value (divTen be).1 := by omega
  by_cases hlast : value (divTen be).1 = 0
  · have hstop : ¬ (divTen be).1.any (· != 0) = true := by simpa using value_eq_zero_iff.mp hlast
    rw [pushDigits, if_neg hstop, toDigits_of_lt_base (by omega), ← hmod, mod_eq_of_lt (by omega)]
    rfl
  · rw [pushDigits_eq _ _ hlast, toDigits_of_base_le (by decide) (by omega : 10 ≤ value be), hdiv, hmod]
    simp
termination_by value be

theorem toDecimal_eq (le : Hex.Bytes 32) : toDecimal le = (toNat le).repr := by
  have hvalue := value_reverse le
  unfold toDecimal
  by_cases hzero : le.1.all (· == 0) = true
  · have hnone : value le.1.reverse = 0 := value_eq_zero_iff.mpr (by simpa using hzero)
    rw [if_pos hzero, ← hvalue, hnone]
    rfl
  · have hsome : value le.1.reverse ≠ 0 := fun hnone => hzero (by simpa using value_eq_zero_iff.mp hnone)
    rw [if_neg hzero, pushDigits_eq _ _ hsome, hvalue]
    simp [Nat.repr]

/-! ### Reading -/

def textBytes (text : String) : List UInt8 := text.toList.flatMap String.utf8EncodeChar

def isAsciiDigit (byte : UInt8) : Bool := 48 ≤ byte && byte ≤ 57

def mulStep (carry : UInt16) (byte : UInt8) : UInt8 × UInt16 :=
  let cur := byte.toUInt16 * 10 + carry
  ((cur &&& 0xff).toUInt8, cur >>> 8)

theorem mulStep_exact (carry : UInt16) (byte : UInt8) (hcarry : carry.toNat < 10) : (mulStep carry byte).2.toNat < 10 ∧
      (mulStep carry byte).1.toNat + 256 * (mulStep carry byte).2.toNat = 10 * byte.toNat + carry.toNat := by
  have hbyte := byte.toNat_lt
  have hcur : (byte.toUInt16 * 10 + carry).toNat = 10 * byte.toNat + carry.toNat := by
    simp only [UInt16.toNat_add, UInt16.toNat_mul, toNat_toUInt16, UInt16.reduceToNat]
    omega
  have hlow : ((byte.toUInt16 * 10 + carry) &&& 0xff).toNat = (10 * byte.toNat + carry.toNat) % 256 := by
    rw [UInt16.toNat_and, hcur]
    exact and_two_pow_sub_one_eq_mod _ 8
  have hhigh : ((byte.toUInt16 * 10 + carry) >>> 8).toNat = (10 * byte.toNat + carry.toNat) / 256 := by
    rw [UInt16.toNat_shiftRight, hcur, shiftRight_eq_div_pow]
    rfl
  simp only [mulStep, UInt16.toNat_toUInt8, hlow, hhigh]
  omega

/-- One turn of the outer loop: the bytes times ten plus a digit, and what does not fit. -/
def mulTen {n : ℕ} (digit : UInt16) (be : Hex.Bytes n) : Hex.Bytes n × UInt16 :=
  let pass := passUp mulStep digit be.1
  (⟨pass.1, (length_passUp digit be.1).trans be.2⟩, pass.2)

theorem mulTen_exact {n : ℕ} {digit : UInt16} (hdigit : digit.toNat < 10) (be : Hex.Bytes n) :
    value (mulTen digit be).1.1 + 256 ^ n * (mulTen digit be).2.toNat = 10 * value be.1 + digit.toNat := by
  have hpass := (value_passUp mulStep_exact hdigit be.1).2
  rwa [be.2] at hpass

def readDigits {n : ℕ} : List UInt16 → Hex.Bytes n → Option (Hex.Bytes n)
  | [], be => some be
  | digit :: digits, be =>
    if (mulTen digit be).2 ≠ 0 then none else readDigits digits (mulTen digit be).1

theorem length_zeros : (List.replicate 32 (0 : UInt8)).length = 32 := List.length_replicate

def zeros : Hex.Bytes 32 := ⟨List.replicate 32 0, length_zeros⟩

def fromDecimal (text : String) : Except String (Hex.Bytes 32) :=
  if text.isEmpty || !(textBytes text).all isAsciiDigit then .error s!"invalid uint256 decimal: {text}"
  else
    match readDigits ((textBytes text).map fun byte => (byte - 48).toUInt16) zeros with
    | none => .error s!"uint256 overflow: {text}"
    | some be => .ok ⟨be.1.reverse, by rw [List.length_reverse, be.2]⟩

def readNat (n : ℕ) (digits : List UInt16) : ℕ := digits.foldl (fun n digit => 10 * n + digit.toNat) n

theorem le_readNat (n : ℕ) (digits : List UInt16) : n ≤ readNat n digits := by
  induction digits generalizing n with
  | nil => exact le_refl n
  | cons digit digits ih => exact le_trans (by omega) (ih (10 * n + digit.toNat))

/-- The loop comes to the number of its digits, or to an overflow as soon as a part of them does not fit. -/
theorem readDigits_eq {n : ℕ} {digits : List UInt16} (hdigits : ∀ digit ∈ digits, digit.toNat < 10) (be : Hex.Bytes n) :
    (readDigits digits be).map (fun bytes => value bytes.1) =
      if readNat (value be.1) digits < 256 ^ n then some (readNat (value be.1) digits) else none := by
  induction digits generalizing be with
  | nil =>
    have hlt : value be.1 < 256 ^ n := by simpa [be.2] using value_lt be.1
    exact (if_pos hlt).symm
  | cons digit digits ih =>
    obtain ⟨hdigit, hrest⟩ := forall_mem_cons.mp hdigits
    have hexact := mulTen_exact hdigit be
    have hnext : readNat (value be.1) (digit :: digits) = readNat (10 * value be.1 + digit.toNat) digits := rfl
    rw [readDigits, hnext]
    by_cases hcarry : (mulTen digit be).2 = 0
    · rw [hcarry] at hexact
      have hvalue : value (mulTen digit be).1.1 = 10 * value be.1 + digit.toNat := by simpa using hexact
      rw [if_neg (not_not_intro hcarry), ih hrest, hvalue]
    · have hpos : 1 ≤ (mulTen digit be).2.toNat :=
        Nat.one_le_iff_ne_zero.mpr fun hzero => hcarry (UInt16.toNat_inj.mp hzero)
      have hfull : 256 ^ n ≤ 10 * value be.1 + digit.toNat := by
        calc 256 ^ n = 256 ^ n * 1 := (Nat.mul_one _).symm
          _ ≤ 256 ^ n * (mulTen digit be).2.toNat := Nat.mul_le_mul_left _ hpos
          _ ≤ 10 * value be.1 + digit.toNat := by omega
      have hover := Nat.le_trans hfull (le_readNat _ digits)
      rw [if_pos hcarry, if_neg (Nat.not_lt.mpr hover)]
      rfl

/-! ### Texts of digits -/

theorem isDigit_iff {c : Char} : c.isDigit = true ↔ 48 ≤ c.val.toNat ∧ c.val.toNat ≤ 57 := by
  simp [Char.isDigit, UInt32.le_iff_toNat_le]

theorem isAsciiDigit_iff {byte : UInt8} : isAsciiDigit byte = true ↔ 48 ≤ byte.toNat ∧ byte.toNat ≤ 57 := by
  simp [isAsciiDigit, UInt8.le_iff_toNat_le]

theorem utf8EncodeChar_of_isDigit {c : Char} (h : c.isDigit = true) :
    String.utf8EncodeChar c = [UInt8.ofNat c.val.toNat] := by
  have hrange := isDigit_iff.mp h
  exact if_pos (by omega)

theorem all_isAsciiDigit_utf8EncodeChar (c : Char) :
    (String.utf8EncodeChar c).all isAsciiDigit = true ↔ c.isDigit = true := by
  have hbyte : ∀ n < 256, isAsciiDigit (UInt8.ofNat n) = true ↔ 48 ≤ n ∧ n ≤ 57 := by
    intro n hn
    rw [isAsciiDigit_iff, UInt8.toNat_ofNat', mod_eq_of_lt hn]
  rw [isDigit_iff]
  dsimp only [String.utf8EncodeChar]
  split_ifs
  · simp only [all_cons, all_nil, Bool.and_true, hbyte _ (by omega : c.val.toNat < 256)]
  · simp only [all_cons, Bool.and_eq_true, hbyte _ (by omega : c.val.toNat / 64 % 32 + 192 < 256)]
    omega
  · simp only [all_cons, Bool.and_eq_true, hbyte _ (by omega : c.val.toNat / 4096 % 16 + 224 < 256)]
    omega
  · simp only [all_cons, Bool.and_eq_true, hbyte _ (by omega : c.val.toNat / 262144 % 8 + 240 < 256)]
    omega

theorem all_isAsciiDigit_textBytes (text : String) :
    (textBytes text).all isAsciiDigit = text.toList.all Char.isDigit := by
  rw [textBytes, all_flatMap, Bool.eq_iff_iff]
  simp only [all_eq_true (p := Char.isDigit), ← all_isAsciiDigit_utf8EncodeChar]
  simp

theorem readNat_textBytes {chars : List Char} (h : ∀ c ∈ chars, c.isDigit = true) (n : ℕ) :
    readNat n ((chars.flatMap String.utf8EncodeChar).map fun byte => (byte - 48).toUInt16) =
      Nat.ofDigitChars 10 chars n := by
  induction chars generalizing n with
  | nil => rfl
  | cons c chars ih =>
    obtain ⟨hc, hchars⟩ := forall_mem_cons.mp h
    have hrange := isDigit_iff.mp hc
    have hdigit : (UInt8.ofNat c.val.toNat - 48).toUInt16.toNat = c.toNat - '0'.toNat := by
      have hle : (48 : UInt8) ≤ UInt8.ofNat c.val.toNat := by
        show 48 ≤ c.val.toNat % 256
        omega
      rw [UInt8.toNat_toUInt16, UInt8.toNat_sub_of_le _ _ hle, UInt8.toNat_ofNat', mod_eq_of_lt (by omega)]
      rfl
    rw [flatMap_cons, utf8EncodeChar_of_isDigit hc, ofDigitChars_cons, ← ih hchars, ← hdigit]
    rfl

variable {text : String}

theorem digits_textBytes (h : (textBytes text).all isAsciiDigit = true) :
    ∀ digit ∈ (textBytes text).map fun byte => (byte - 48).toUInt16, digit.toNat < 10 := by
  intro digit hdigit
  obtain ⟨byte, hmem, rfl⟩ := mem_map.mp hdigit
  have hrange := isAsciiDigit_iff.mp (all_eq_true.mp h byte hmem)
  have hle : (48 : UInt8) ≤ byte := UInt8.le_iff_toNat_le.mpr hrange.1
  rw [UInt8.toNat_toUInt16, UInt8.toNat_sub_of_le _ _ hle]
  show byte.toNat - 48 < 10
  omega

/-- A text that is read: at least one character, all of them digits, and a number that fits. -/
def Readable (text : String) : Prop :=
  text ≠ "" ∧ text.toList.all Char.isDigit = true ∧ Nat.ofDigitChars 10 text.toList 0 < 2 ^ 256

theorem value_zeros : value zeros.1 = 0 := value_eq_zero_iff.mpr (by simp [zeros])

theorem readDigits_textBytes (h : text.toList.all Char.isDigit = true) :
    (readDigits ((textBytes text).map fun byte => (byte - 48).toUInt16) zeros).map (fun be => value be.1) =
      if Nat.ofDigitChars 10 text.toList 0 < 2 ^ 256 then some (Nat.ofDigitChars 10 text.toList 0) else none := by
  have hbytes : (textBytes text).all isAsciiDigit = true := (all_isAsciiDigit_textBytes text).trans h
  have hread := readDigits_eq (digits_textBytes hbytes) zeros
  have hpow : 256 ^ 32 = 2 ^ 256 := by norm_num
  rwa [value_zeros, textBytes, readNat_textBytes (all_eq_true.mp h), hpow] at hread

theorem fromDecimal_of_readable (h : Readable text) :
    ∃ le, fromDecimal text = .ok le ∧ toNat le = Nat.ofDigitChars 10 text.toList 0 := by
  obtain ⟨hne, hdigits, hfits⟩ := h
  have hread := readDigits_textBytes hdigits
  rw [if_pos hfits] at hread
  obtain ⟨be, hbe, hvalue⟩ := Option.map_eq_some_iff.mp hread
  have hvalid : ¬ (text.isEmpty || !(textBytes text).all isAsciiDigit) = true := by
    simp [all_isAsciiDigit_textBytes, hdigits, hne]
  refine ⟨_, by rw [fromDecimal, if_neg hvalid, hbe], ?_⟩
  rw [← value_reverse]
  simpa using hvalue

theorem readable_of_fromDecimal {le : Hex.Bytes 32} (h : fromDecimal text = .ok le) : Readable text := by
  unfold fromDecimal at h
  split at h
  · cases h
  · next hvalid =>
    have hdigits : text.toList.all Char.isDigit = true := by
      rw [← all_isAsciiDigit_textBytes]
      simp_all
    refine ⟨by rintro rfl; exact hvalid rfl, hdigits, ?_⟩
    by_contra hfull
    have hread := readDigits_textBytes hdigits
    rw [if_neg hfull, Option.map_eq_none_iff] at hread
    rw [hread] at h
    cases h

theorem readable_repr (le : Hex.Bytes 32) : Readable (toNat le).repr := by
  have hdigit : ∀ c ∈ toDigits 10 (toNat le), c.isDigit = true := fun c hc =>
    isDigit_of_mem_toDigits (by decide) (by decide) hc
  refine ⟨?_, ?_, ?_⟩
  · intro hempty
    have hnil : toDigits 10 (toNat le) = [] := by rw [← toList_repr, hempty]; rfl
    exact toDigits_ne_nil hnil
  · rw [toList_repr]
    exact all_eq_true.mpr hdigit
  · rw [toList_repr, ofDigitChars_ten_toDigits]
    exact toNat_lt le

/-- The text that is written is the decimal numeral, reading it gives the bytes back, and what is read are the texts of
digits whose number is below `2 ^ 256`, with that number as the result. -/
theorem decimal_codec_exact : (∀ le, fromDecimal (toDecimal le) = .ok le) ∧ (∀ le, toDecimal le = (toNat le).repr) ∧
      ∀ text, ((∃ le, fromDecimal text = .ok le) ↔ Readable text) ∧
        ∀ le, fromDecimal text = .ok le → toNat le = Nat.ofDigitChars 10 text.toList 0 := by
  have hvalue : ∀ text le, fromDecimal text = .ok le → toNat le = ofDigitChars 10 text.toList 0 := by
    intro text le hread
    obtain ⟨le', hread', hnat⟩ := fromDecimal_of_readable (readable_of_fromDecimal hread)
    rw [hread] at hread'
    rwa [Except.ok.inj hread']
  refine ⟨?_, toDecimal_eq, fun text => ⟨⟨?_, ?_⟩, hvalue text⟩⟩
  · intro le
    obtain ⟨le', hread, hnat⟩ := fromDecimal_of_readable (readable_repr le)
    rw [toList_repr, ofDigitChars_ten_toDigits] at hnat
    rw [toDecimal_eq, hread, toNat_inj hnat]
  · rintro ⟨le, hread⟩
    exact readable_of_fromDecimal hread
  · intro hreadable
    obtain ⟨le, hread, _⟩ := fromDecimal_of_readable hreadable
    exact ⟨le, hread⟩

example : (fromDecimal "00018446744073709551616").toOption.map (·.1) =
    some (List.replicate 8 0 ++ 1 :: List.replicate 23 0) := by
  decide +kernel

end Rvc.EthTypes.Uint256
