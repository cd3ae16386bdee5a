import Mathlib.Algebra.Ring.Nat
import Rvc.Lib.Hex

/-!
# Keystores

An encrypted key as `serde_json` reads it, with the check of its names (`Keystore::validate`) and its decryption. The
two read different fields: `validate` the version and the names of cipher and checksum, which `decrypt` never looks
at; both the name of the key derivation. Key derivation, hash, cipher and curve are parameters.
-/

namespace Rvc.Crypto

open Rvc.Lib

structure ScryptParams where
  dklen : Nat
  n : Nat
  p : Nat
  r : Nat
  salt : String
  deriving DecidableEq

structure Pbkdf2Params where
  dklen : Nat
  c : Nat
  prf : String
  salt : String
  deriving DecidableEq

inductive KdfParams where
  | scrypt (params : ScryptParams)
  | pbkdf2 (params : Pbkdf2Params)
  deriving DecidableEq

structure KdfModule where
  function : String
  params : KdfParams
  deriving DecidableEq

structure ChecksumModule where
  function : String
  message : String
  deriving DecidableEq

structure CipherParams where
  iv : String
  deriving DecidableEq

structure CipherModule where
  function : String
  params : CipherParams
  message : String
  deriving DecidableEq

structure KeystoreCrypto where
  kdf : KdfModule
  checksum : ChecksumModule
  cipher : CipherModule
  deriving DecidableEq

structure Keystore where
  crypto : KeystoreCrypto
  pubkey : Option String
  version : Nat
  deriving DecidableEq

inductive KeystoreError where
  | invalidJson (e : String)
  | unsupportedVersion (version : Nat)
  | unsupportedKdf (name : String)
  | unsupportedCipher (name : String)
  | unsupportedChecksum (name : String)
  | invalidHex (e : Hex.DecodeError)
  | checksumMismatch
  | invalidScryptParams (reason : String)
  | invalidPbkdf2Params (reason : String)
  | keyDerivationFailed (reason : String)
  | invalidIvLength (expected actual : Nat)
  | invalidSecretKey (reason : String)
  | io
  deriving DecidableEq

/-- What `scrypt`, `pbkdf2`, `sha2`, `aes` and `blst` compute. A public key has one encoding of 48 bytes. -/
structure Primitives (SK PK : Type) where
  scryptParams : (logN r p len : Nat) → Except String Unit
  scrypt : (password salt : List UInt8) → (logN r p len : Nat) → Except String (Hex.Bytes 32)
  pbkdf2 : (password salt : List UInt8) → (c : Nat) → Hex.Bytes 32
  sha256 : List UInt8 → List UInt8
  aes128Ctr : (key iv data : List UInt8) → List UInt8
  secretKeyFromBytes : List UInt8 → Option SK
  publicKey : SK → PK
  publicKeyFromBytes : List UInt8 → Option PK
  toBytes : PK → Hex.Bytes 48
  toBytes_fromBytes : ∀ {bytes key}, publicKeyFromBytes bytes = some key → bytes.length = 48 → (toBytes key).1 = bytes

def keystoreVersion : Nat := 4

def kdfScrypt : String := "scrypt"

def kdfPbkdf2 : String := "pbkdf2"

def cipherAes128Ctr : String := "aes-128-ctr"

def checksumSha256 : String := "sha256"

def aesKeyLen : Nat := 16

def ivLen : Nat := 16

def minPbkdf2C : Nat := 10000

def maxPbkdf2C : Nat := 10000000

def maxScryptN : Nat := 2 ^ 20

def maxScryptR : Nat := 8

def maxScryptP : Nat := 8

def maxScryptDklen : Nat := 32

def hexDecode (text : String) : Except KeystoreError (List UInt8) := (Hex.decode text).mapError .invalidHex

namespace Keystore

def kdfWorkingSetBytes (keystore : Keystore) : Nat :=
  match keystore.crypto.kdf.params with
  | .scrypt params =>
    if keystore.crypto.kdf.function = kdfScrypt then min (128 * params.r * params.n) (2 ^ 64 - 1) else 0
  | .pbkdf2 _ => 0

def validate (keystore : Keystore) : Except KeystoreError Unit :=
  if keystore.version ≠ keystoreVersion then .error (.unsupportedVersion keystore.version)
  else if keystore.crypto.kdf.function ≠ kdfScrypt ∧ keystore.crypto.kdf.function ≠ kdfPbkdf2 then
    .error (.unsupportedKdf keystore.crypto.kdf.function)
  else if keystore.crypto.cipher.function ≠ cipherAes128Ctr then
    .error (.unsupportedCipher keystore.crypto.cipher.function)
  else if keystore.crypto.checksum.function ≠ checksumSha256 then
    .error (.unsupportedChecksum keystore.crypto.checksum.function)
  else .ok ()

/-- `Keystore::from_json`; `parse` is `serde_json::from_str`. -/
def fromJson (parse : String → Except String Keystore) (json : String) : Except KeystoreError Keystore := do
  let keystore ← (parse json).mapError .invalidJson
  keystore.validate
  return keystore

section

variable {SK PK : Type} (P : Primitives SK PK) (keystore : Keystore)

def isPowerOfTwo (n : Nat) : Bool := n = 2 ^ Nat.log2 n

section

variable (password : List UInt8)

def deriveKeyScrypt : Except KeystoreError (Hex.Bytes 32) :=
  match keystore.crypto.kdf.params with
  | .pbkdf2 _ => .error (.invalidScryptParams "expected scrypt params")
  | .scrypt params => do
    if params.n > maxScryptN then
      throw (.invalidScryptParams s!"n ({params.n}) exceeds maximum ({maxScryptN})")
    if params.r > maxScryptR then
      throw (.invalidScryptParams s!"r ({params.r}) exceeds maximum ({maxScryptR})")
    if params.p > maxScryptP then
      throw (.invalidScryptParams s!"p ({params.p}) exceeds maximum ({maxScryptP})")
    if params.dklen > maxScryptDklen then
      throw (.invalidScryptParams s!"dklen ({params.dklen}) exceeds maximum ({maxScryptDklen})")
    if params.n = 0 ∨ isPowerOfTwo params.n = false then
      throw (.invalidScryptParams "n must be a positive power of 2")
    let salt ← hexDecode params.salt
    let logN := Nat.log2 params.n
    (P.scryptParams logN params.r params.p params.dklen).mapError .invalidScryptParams
    (P.scrypt password salt logN params.r params.p params.dklen).mapError .keyDerivationFailed

def deriveKeyPbkdf2 : Except KeystoreError (Hex.Bytes 32) :=
  match keystore.crypto.kdf.params with
  | .scrypt _ => .error (.keyDerivationFailed "expected pbkdf2 params")
  | .pbkdf2 params => do
    if params.prf ≠ "hmac-sha256" then throw (.keyDerivationFailed s!"unsupported PRF: {params.prf}")
    if params.c < minPbkdf2C then
      throw (.invalidPbkdf2Params s!"iteration count ({params.c}) below minimum ({minPbkdf2C})")
    if params.c > maxPbkdf2C then
      throw (.invalidPbkdf2Params s!"iteration count ({params.c}) exceeds maximum ({maxPbkdf2C})")
    let salt ← hexDecode params.salt
    return P.pbkdf2 password salt params.c

def deriveKey : Except KeystoreError (Hex.Bytes 32) :=
  if keystore.crypto.kdf.function = kdfScrypt then keystore.deriveKeyScrypt P password
  else if keystore.crypto.kdf.function = kdfPbkdf2 then keystore.deriveKeyPbkdf2 P password
  else .error (.unsupportedKdf keystore.crypto.kdf.function)

def verifyChecksum (derivedKey : Hex.Bytes 32) (ciphertext : List UInt8) : Except KeystoreError Unit := do
  let expectedChecksum ← hexDecode keystore.crypto.checksum.message
  if P.sha256 (derivedKey.1.drop aesKeyLen ++ ciphertext) ≠ expectedChecksum then throw .checksumMismatch

def decryptCiphertext (derivedKey : Hex.Bytes 32) (ciphertext : List UInt8) : Except KeystoreError (List UInt8) := do
  let iv ← hexDecode keystore.crypto.cipher.params.iv
  if iv.length ≠ ivLen then throw (.invalidIvLength ivLen iv.length)
  return P.aes128Ctr (derivedKey.1.take aesKeyLen) iv ciphertext

def decrypt : Except KeystoreError SK := do
  let derivedKey ← keystore.deriveKey P password
  let ciphertext ← hexDecode keystore.crypto.cipher.message
  keystore.verifyChecksum P derivedKey ciphertext
  let plaintext ← keystore.decryptCiphertext P derivedKey ciphertext
  match P.secretKeyFromBytes plaintext with
  | some secretKey => return secretKey
  | none => throw (.invalidSecretKey "invalid secret key bytes")

end

end

/-! ### What a decryption says of the names -/

variable {SK PK : Type} {P : Primitives SK PK} {keystore : Keystore} {password : List UInt8} {secretKey : SK}

theorem kdf_of_decrypt (h : keystore.decrypt P password = .ok secretKey) :
    keystore.crypto.kdf.function = kdfScrypt ∨ keystore.crypto.kdf.function = kdfPbkdf2 := by
  obtain ⟨derivedKey, hderive, -⟩ := bind_eq_ok.mp h
  unfold deriveKey at hderive
  split_ifs at hderive with hscrypt hpbkdf2
  · exact .inl hscrypt
  · exact .inr hpbkdf2

structure Named (keystore : Keystore) : Prop where
  version : keystore.version = keystoreVersion
  cipher : keystore.crypto.cipher.function = cipherAes128Ctr
  checksum : keystore.crypto.checksum.function = checksumSha256

theorem validate_eq_ok (hkdf : keystore.crypto.kdf.function = kdfScrypt ∨ keystore.crypto.kdf.function = kdfPbkdf2) :
    keystore.validate = .ok () ↔ keystore.Named := by
  unfold validate
  split_ifs with hversion hbad hcipher hchecksum
  · exact ⟨nofun, fun h => absurd h.version hversion⟩
  · exact absurd hkdf (not_or.mpr hbad)
  · exact ⟨nofun, fun h => absurd h.cipher hcipher⟩
  · exact ⟨nofun, fun h => absurd h.checksum hchecksum⟩
  · exact ⟨fun _ => ⟨not_not.mp hversion, not_not.mp hcipher, not_not.mp hchecksum⟩, fun _ => rfl⟩

end Keystore

end Rvc.Crypto
