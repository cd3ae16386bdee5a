import Rvc.Crypto.KeyManager
import Rvc.KeymanagerAdapters.DuplicateImport
import Rvc.KeymanagerAdapters.KdfBudget
import Rvc.Lib.Slices

/-!
# An imported keystore at the next boot

`import_keystore` deserialises and decrypts the keystore that it is given, and then writes its text, unchanged, to
`0x<pk>.json`. At the next boot the text is validated as well: version, cipher and checksum have to have their names,
and the keystore has to declare the public key, in hex without prefix. So the imported key is there again exactly if
its keystore meets what boot asks beyond import, or another file of the directory loads the same key.
-/

namespace Rvc.KeymanagerAdapters

open Rvc.Lib Rvc.Crypto Rvc.Crypto.KeyManager ImportAt Keystore Except List

variable {ι SK PK : Type}

/-- The errors of `import_keystore` before it looks at the stores. -/
inductive PrepareError where
  | invalidKeystore (reason : String ⊕ KdfBudgetError)
  | decryptionFailed (e : KeystoreError)
  deriving DecidableEq

/-- `import_keystore` up to the public key: it is parsed, admitted by the budget, and decrypted. -/
def prepareImport (P : Primitives SK PK) (parse : String → Except String Keystore) (cfg : KdfBudgetConfig)
    (keystoreJson password : String) : Except PrepareError (Hex.Bytes 48) :=
  match parse keystoreJson with
  | .error e => .error (.invalidKeystore (.inl e))
  | .ok keystore =>
    let bytes := keystore.kdfWorkingSetBytes
    if bytes > cfg.maxKeystoreBytes then .error (.invalidKeystore (.inr (.tooLarge bytes cfg.maxKeystoreBytes)))
    else
      match keystore.decrypt P password.toUTF8.toList with
      | .error e => .error (.decryptionFailed e)
      | .ok secretKey => .ok (P.toBytes (P.publicKey secretKey))

theorem prepareImport_eq_ok {P : Primitives SK PK} {parse : String → Except String Keystore} {cfg : KdfBudgetConfig}
    {keystoreJson password : String} {pubkey : Hex.Bytes 48}
    (h : prepareImport P parse cfg keystoreJson password = .ok pubkey) :
    ∃ keystore secretKey, parse keystoreJson = .ok keystore ∧
      keystore.decrypt P password.toUTF8.toList = .ok secretKey ∧ P.toBytes (P.publicKey secretKey) = pubkey := by
  unfold prepareImport at h
  split at h
  · cases h
  · next keystore hparse =>
    simp only at h
    split_ifs at h
    split at h
    · cases h
    · next secretKey hdecrypt =>
      cases h
      exact ⟨keystore, secretKey, hparse, hdecrypt, rfl⟩

/-! ### The file that an import leaves -/

def keystoreFileName (pubkey : Hex.Bytes 48) : String := "0x" ++ Hex.encode pubkey.1 ++ ".json"

theorem extension_keystoreFileName (pubkey : Hex.Bytes 48) : extension (keystoreFileName pubkey) = some "json" := by
  refine extension_json fun h => ?_
  have hsize := congrArg String.utf8ByteSize h
  simp only [String.utf8ByteSize_append, String.utf8ByteSize_empty] at hsize
  have htwo : "0x".utf8ByteSize = 2 := rfl
  omega

namespace ImportAt

def Wrote (json : String) (files : KeyFiles) : ImportAt → Prop
  | staged | absent _ | held _ | publishing _ => files.staged = some json
  | publishingMeta _ | admitting _ _ | clearing | settling | readmitting _ | imported => files.keystore = some json
  | _ => True

theorem access_files (source : SecretSource) (pubkey : Doppelganger.PublicKey) (epoch : Nat) (s : Stores)
    (phase : AdmitPhase) : (phase.access source pubkey epoch s).2.files = s.files := by
  cases phase <;> simp only [AdmitPhase.access] <;> (repeat' split) <;> rfl

theorem Wrote.access {job : ImportJob} {epoch : Nat} {s : Stores} {importing : ImportAt}
    (h : importing.Wrote job.keystoreJson s.files) :
    (importing.access job epoch s).1.Wrote job.keystoreJson (importing.access job epoch s).2.files := by
  cases importing with
  | waiting =>
    simp only [ImportAt.access]
    split_ifs <;> trivial
  | staging => exact rfl
  | staged =>
    simp only [ImportAt.access]
    split_ifs
    · trivial
    · split <;> exact h
  | absent untilUnix => exact h
  | held preinserted =>
    simp only [ImportAt.access]
    split_ifs
    · trivial
    · exact h
  | publishing preinserted | publishingMeta preinserted => exact h
  | admitting preinserted phase =>
    simp only [ImportAt.access]
    split
    · exact h
    · trivial
    · trivial
    · trivial
    · rw [access_files]
      exact h
  | clearing | settling => exact h
  | readmitting deleteStillInFlight =>
    simp only [ImportAt.access]
    split_ifs <;> exact h
  | imported => exact h
  | lateDuplicate => trivial
  | rollingBack insertedRow => trivial
  | unmapping insertedRow => trivial
  | discarding insertedRow => trivial
  | failed => trivial
  | deleteInProgress => trivial
  | duplicate found => trivial

end ImportAt

/-- However admissions of the secret provider run beside it, an import that returns `Ok` leaves the text it was
given. -/
theorem keystore_of_imported [DecidableEq ι] {job : ImportJob} (stores : Stores) (turns : List (Turn ι))
    (himported : ((Racing.begin stores : Racing ι).run job turns).importing = .imported) :
    ((Racing.begin stores : Racing ι).run job turns).stores.files.keystore = some job.keystoreJson := by
  have hrun : ∀ (turns : List (Turn ι)) (r : Racing ι), r.importing.Wrote job.keystoreJson r.stores.files →
      (r.run job turns).importing.Wrote job.keystoreJson (r.run job turns).stores.files := by
    intro turns
    induction turns with
    | nil => exact fun r h => h
    | cons turn turns ih =>
      intro r h
      refine ih (r.step job turn) ?_
      cases turn with
      | importing epoch => exact h.access
      | admitting i epoch =>
        show r.importing.Wrote job.keystoreJson (AdmitPhase.access _ _ _ _ _).2.files
        rw [access_files]
        exact h
  have hwrote := hrun turns (Racing.begin stores) trivial
  rw [himported] at hwrote
  exact hwrote

/-! ### The next boot -/

/-- What boot asks of a keystore beyond import: its names, and its public key in hex. -/
def BootReadable (P : Primitives SK PK) (keystore : Keystore) (pubkey : Hex.Bytes 48) : Prop :=
  keystore.Named ∧ ∃ declared, keystore.pubkey = some declared ∧ HexOf P declared pubkey

def importedEntry (pubkey : Hex.Bytes 48) (keystoreJson : String) : DirEntry :=
  ⟨keystoreFileName pubkey, true, true, some keystoreJson⟩

variable {P : Primitives SK PK} {parse : String → Except String Keystore} {keystore : Keystore}
  {keystoreJson password : String} {secretKey : SK} {pubkey : Hex.Bytes 48} {passwords : String → Option String}
  {denylist : Option (Hex.Bytes 48 → Bool)}

theorem fromJson_eq_ok (hparse : parse keystoreJson = .ok keystore) {keystore' : Keystore} :
    Keystore.fromJson parse keystoreJson = .ok keystore' ↔ keystore.validate = .ok () ∧ keystore = keystore' := by
  unfold Keystore.fromJson
  rw [hparse]
  cases hvalidate : keystore.validate with
  | error e =>
    refine ⟨fun h => ?_, nofun⟩
    simp only [Except.mapError, bind, Except.bind, hvalidate] at h
    cases h
  | ok _ =>
    simp only [Except.mapError, bind, Except.bind, hvalidate, pure, Except.pure, Except.ok.injEq, true_and]

theorem loads_importedEntry (hparse : parse keystoreJson = .ok keystore)
    (hdecrypt : keystore.decrypt P password.toUTF8.toList = .ok secretKey)
    (hpubkey : P.toBytes (P.publicKey secretKey) = pubkey)
    (hpassword : ∀ declared ∈ keystore.pubkey, (passwords declared).or (passwords wildcardKey) = some password)
    (hallowed : ∀ deny ∈ denylist, deny pubkey = false) :
    Loads P parse passwords denylist (importedEntry pubkey keystoreJson) pubkey ↔ BootReadable P keystore pubkey := by
  have hvalidate := validate_eq_ok (kdf_of_decrypt hdecrypt)
  constructor
  · rintro ⟨task, secretKey', htask, hsuccess⟩
    obtain ⟨hvalid, hkeystore⟩ := (fromJson_eq_ok hparse).mp htask.keystore
    obtain ⟨-, -, hhex⟩ := decryptTask_eq_success.mp hsuccess
    exact ⟨hvalidate.mp hvalid, task.declaredPubkeyHex, hkeystore ▸ htask.declared, hhex⟩
  · rintro ⟨hnamed, declared, hdeclared, hhex⟩
    refine ⟨⟨keystore, password.toUTF8.toList, declared⟩, secretKey, ?_, ?_⟩
    · exact
        { inside := rfl
          isFile := rfl
          json := extension_keystoreFileName pubkey
          keystore := (fromJson_eq_ok hparse).mpr ⟨hvalidate.mpr hnamed, rfl⟩
          declared := hdeclared
          allowed := isDenylisted_of_hexOf hhex hallowed
          password := by rw [hpassword declared hdeclared]; rfl }
    · exact decryptTask_eq_success.mpr ⟨hdecrypt, hpubkey, hhex⟩

/-- An imported key is there after a restart exactly if boot can read its keystore, or another file loads the key. -/
theorem imported_keystore_reloads [DecidableEq ι] (P : Primitives SK PK) (parse : String → Except String Keystore)
    (cfg : KdfBudgetConfig) (keystoreJson password : String) (pubkey : Hex.Bytes 48)
    (hprepare : prepareImport P parse cfg keystoreJson password = .ok pubkey) (metaJson : String)
    (holdUntil : Option Nat) (stores : Stores) (turns : List (Turn ι))
    (himported : ((Racing.begin stores : Racing ι).run ⟨pubkey, keystoreJson, metaJson, holdUntil⟩ turns).importing =
      .imported) (directory : Directory)
    (hkept : ∀ text ∈ ((Racing.begin stores : Racing ι).run ⟨pubkey, keystoreJson, metaJson, holdUntil⟩
      turns).stores.files.keystore, importedEntry pubkey text ∈ directory.entries)
    (passwords : String → Option String) (hwildcard : passwords wildcardKey = some password)
    (hown : ∀ keystore, parse keystoreJson = .ok keystore → ∀ declared ∈ keystore.pubkey,
      ∀ other ∈ passwords declared, other = password)
    (denylist : Option (Hex.Bytes 48 → Bool)) (hallowed : ∀ deny ∈ denylist, deny pubkey = false) :
    (∃ manager, load P parse passwords denylist (some directory) = .ok manager ∧ manager.contains pubkey = true) ↔
      (∃ keystore, parse keystoreJson = .ok keystore ∧ BootReadable P keystore pubkey) ∨
        ∃ entry ∈ directory.entries, entry.fileName ≠ keystoreFileName pubkey ∧
          Loads P parse passwords denylist entry pubkey := by
  obtain ⟨keystore, secretKey, hparse, hdecrypt, hpubkey⟩ := prepareImport_eq_ok hprepare
  have hentry : importedEntry pubkey keystoreJson ∈ directory.entries :=
    hkept keystoreJson (keystore_of_imported stores turns himported)
  have hpassword : ∀ declared ∈ keystore.pubkey, (passwords declared).or (passwords wildcardKey) = some password := by
    intro declared hdeclared
    cases hlookup : passwords declared with
    | none => exact hwildcard
    | some other => exact congrArg some (hown keystore hparse declared hdeclared other hlookup)
  have hloads := loads_importedEntry hparse hdecrypt hpubkey hpassword hallowed
  have hmanager : (∃ manager, load P parse passwords denylist (some directory) = .ok manager ∧
      manager.contains pubkey = true) ↔
      ∃ entry ∈ directory.entries, Loads P parse passwords denylist entry pubkey := by
    obtain ⟨manager, hload, hcontains⟩ :
        ∃ manager, load P parse passwords denylist (some directory) = .ok manager ∧ _ :=
      contains_load hentry rfl rfl (extension_keystoreFileName pubkey)
    rw [← hcontains]
    refine ⟨fun ⟨other, hother, hkey⟩ => ?_, fun hkey => ⟨manager, hload, hkey⟩⟩
    cases hload.symm.trans hother
    exact hkey
  rw [hmanager]
  constructor
  · rintro ⟨entry, hmem, hloaded⟩
    by_cases hname : entry.fileName = keystoreFileName pubkey
    · -- a directory has the name once, so this is the imported file
      obtain rfl : entry = importedEntry pubkey keystoreJson :=
        inj_on_of_nodup_map directory.names_nodup hmem hentry hname
      exact .inl ⟨keystore, hparse, hloads.mp hloaded⟩
    · exact .inr ⟨entry, hmem, hname, hloaded⟩
  · rintro (⟨keystore', hparse', hreadable⟩ | ⟨entry, hmem, -, hloaded⟩)
    · cases hparse.symm.trans hparse'
      exact ⟨_, hentry, hloads.mpr hreadable⟩
    · exact ⟨entry, hmem, hloaded⟩

/-! ### Keystores that come back, and that do not -/

namespace Restart

theorem length_reverse_toBytes (length n : Nat) : (LittleEndian.toBytes length n).reverse.length = length := by simp

def bytesOfNat (length n : Nat) : Hex.Bytes length :=
  ⟨(LittleEndian.toBytes length n).reverse, length_reverse_toBytes length n⟩

/-! The values of `TEST_KEYSTORE_PBKDF2`, the key that its password derives, and the secret in it. -/

def vectorPassword : String := "testpassword🔑"

def vectorPubkey : Hex.Bytes 48 :=
  bytesOfNat 48 0x9612d7a727c9d0a22e185a1c768478dfe919cada9266988cb32359c11f2b7b27f4ae4040902382ae2910c15e2b420d07

def vectorSalt : Hex.Bytes 32 := bytesOfNat 32 0xd4e56740f876aef8c010b86a40d5f56745a118d0906a34e69aec8c0db1cb8fa3

def vectorChecksum : Hex.Bytes 32 := bytesOfNat 32 0x8a9f5d9912ed7e75ea794bc5a89bca5f193721d30868ade6f73043c6ea6febf1

def vectorIv : Hex.Bytes 16 := bytesOfNat 16 0x264daa3f303d7259501c93d997d84fe6

def vectorMessage : Hex.Bytes 32 := bytesOfNat 32 0xcee03fde2af33149775b7223e7845e4fb2c8ae1792e5f99fe9ecf474cc8c16ad

def vectorDerivedKey : Hex.Bytes 32 := bytesOfNat 32 0xff9f053388ab9bd50720ee50a6a8281a940f3f49c1b7e7bafe2e9042c01d319a

def vectorSecret : Hex.Bytes 32 := bytesOfNat 32 0x000000000019d6689c085ae165831e934ff763ae46a2a6c172b3f1b60a8ce26f

/-- The functions as they are at the vector; no other secret and no other public key is read. -/
def vectorPrimitives : Primitives Unit Unit where
  scryptParams _ _ _ _ := .error "not in the vector"
  scrypt _ _ _ _ _ _ := .error "not in the vector"
  pbkdf2 password salt c :=
    if password = vectorPassword.toUTF8.toList ∧ salt = vectorSalt.1 ∧ c = 262144 then vectorDerivedKey
    else bytesOfNat 32 0
  sha256 data := if data = vectorDerivedKey.1.drop aesKeyLen ++ vectorMessage.1 then vectorChecksum.1 else []
  aes128Ctr key iv data :=
    if key = vectorDerivedKey.1.take aesKeyLen ∧ iv = vectorIv.1 ∧ data = vectorMessage.1 then vectorSecret.1 else []
  secretKeyFromBytes bytes := if bytes = vectorSecret.1 then some () else none
  publicKey _ := ()
  publicKeyFromBytes bytes := if bytes = vectorPubkey.1 then some () else none
  toBytes _ := vectorPubkey
  toBytes_fromBytes h _ := by
    split_ifs at h with hbytes
    exact hbytes.symm

variable (pubkey : Option String) (version : Nat)

def vectorKeystore : Keystore where
  crypto.kdf := ⟨"pbkdf2", .pbkdf2 ⟨32, 262144, "hmac-sha256", Hex.encode vectorSalt.1⟩⟩
  crypto.checksum := ⟨"sha256", Hex.encode vectorChecksum.1⟩
  crypto.cipher := ⟨"aes-128-ctr", ⟨Hex.encode vectorIv.1⟩, Hex.encode vectorMessage.1⟩
  pubkey := pubkey
  version := version

/-- The text of the vector, but for the public key that it declares and its version. -/
def vectorJson : String :=
  "\x7b\"crypto\": \x7b\"kdf\": \x7b\"function\": \"pbkdf2\", \"params\": \x7b\"dklen\": 32, \"c\": 262144, " ++
  "\"prf\": \"hmac-sha256\", \"salt\": \"" ++ Hex.encode vectorSalt.1 ++ "\"\x7d, \"message\": \"\"\x7d, " ++
  "\"checksum\": \x7b\"function\": \"sha256\", \"params\": \x7b\x7d, \"message\": \"" ++
  Hex.encode vectorChecksum.1 ++ "\"\x7d, \"cipher\": \x7b\"function\": \"aes-128-ctr\", \"params\": \x7b\"iv\": \"" ++
  Hex.encode vectorIv.1 ++ "\"\x7d, \"message\": \"" ++ Hex.encode vectorMessage.1 ++ "\"\x7d\x7d, " ++
  (pubkey.elim "" fun text => "\"pubkey\": \"" ++ text ++ "\", ") ++
  "\"path\": \"m/12381/60/0/0\", \"uuid\": \"64625def-3331-4eea-ab6f-782f3ed16a83\", \"version\": " ++
  toString version ++ "\x7d"

theorem decrypt_vectorKeystore :
    (vectorKeystore pubkey version).decrypt vectorPrimitives vectorPassword.toUTF8.toList = .ok () := by
  show (vectorKeystore none 4).decrypt vectorPrimitives vectorPassword.toUTF8.toList = .ok ()
  simp only [vectorKeystore, decrypt, deriveKey, deriveKeyPbkdf2, verifyChecksum,
    decryptCiphertext, hexDecode, Hex.decode_encode]
  decide +kernel

/-- What import takes and boot does not: no public key, one with the prefix, and another version. -/
def refusedForms : List (Option String × Nat) :=
  [(none, 4), (some ("0x" ++ Hex.encode vectorPubkey.1), 4), (some (Hex.encode vectorPubkey.1), 3)]

def vectorForms : List (Option String × Nat) := (some (Hex.encode vectorPubkey.1), 4) :: refusedForms

def vectorParse (json : String) : Except String Keystore :=
  match vectorForms.find? fun form => json = vectorJson form.1 form.2 with
  | some form => .ok (vectorKeystore form.1 form.2)
  | none => .error "not in the vector"

def sampleConfig : KdfBudgetConfig := .fromKeymanager 2 512 1024

def emptyStores : Stores := ⟨false, false, none, false, false, none, 0, 0, ⟨none, none, none, none⟩⟩

def importAlone : List (Turn Unit) := List.replicate 17 (.importing 0)

def afterImport (json : String) : Racing Unit :=
  (Racing.begin emptyStores).run ⟨vectorPubkey, json, "imported", none⟩ importAlone

def sampleDirectory (json : String) : Directory := ⟨[importedEntry vectorPubkey json], List.nodup_singleton _⟩

def wildcardOnly : String → Option String := fun key => if key = wildcardKey then some vectorPassword else none

theorem vectorParse_vectorJson : ∀ form ∈ vectorForms,
    vectorParse (vectorJson form.1 form.2) = .ok (vectorKeystore form.1 form.2) := by
  decide +kernel

theorem prepareImport_vectorJson {form : Option String × Nat} (h : form ∈ vectorForms) :
    prepareImport vectorPrimitives vectorParse sampleConfig (vectorJson form.1 form.2) vectorPassword =
      .ok vectorPubkey := by
  simp only [prepareImport, vectorParse_vectorJson form h, decrypt_vectorKeystore]
  exact if_neg (Nat.not_lt_zero _)

theorem eq_of_mem_wildcardOnly {key other : String} (h : other ∈ wildcardOnly key) : other = vectorPassword := by
  unfold wildcardOnly at h
  split_ifs at h
  · exact (Option.some.inj h).symm
  · cases h

theorem wildcardOnly_wildcardKey : wildcardOnly wildcardKey = some vectorPassword := if_pos rfl

theorem imported_keystore_reloads_hex : ∃ manager, load vectorPrimitives vectorParse wildcardOnly none
      (some (sampleDirectory (vectorJson (some (Hex.encode vectorPubkey.1)) 4))) = .ok manager ∧
        manager.contains vectorPubkey = true := by
  have hmem : (some (Hex.encode vectorPubkey.1), 4) ∈ vectorForms := .head _
  refine (imported_keystore_reloads vectorPrimitives vectorParse sampleConfig _ vectorPassword vectorPubkey
    (prepareImport_vectorJson hmem) "imported" none emptyStores importAlone rfl (sampleDirectory _) ?_ wildcardOnly
    wildcardOnly_wildcardKey (fun _ _ _ _ _ => eq_of_mem_wildcardOnly) none nofun).mpr (.inl ?_)
  · rw [keystore_of_imported emptyStores importAlone rfl]
    rintro text ⟨⟩
    exact .head _
  · have hread : vectorPrimitives.publicKeyFromBytes vectorPubkey.1 = some () := by
      show (if vectorPubkey.1 = vectorPubkey.1 then some () else none) = some ()
      exact if_pos rfl
    exact ⟨_, vectorParse_vectorJson _ hmem, ⟨rfl, rfl, rfl⟩, _, rfl, _, _, Hex.decode_encode _, hread, rfl⟩

theorem not_bootReadable_of_mem {form : Option String × Nat} (h : form ∈ refusedForms) :
    ¬BootReadable vectorPrimitives (vectorKeystore form.1 form.2) vectorPubkey := by
  rintro ⟨hnamed, declared, hdeclared, bytes, -, hdecode, -⟩
  simp only [refusedForms, mem_cons, not_mem_nil, or_false] at h
  rcases h with rfl | rfl | rfl
  · cases hdeclared
  · cases hdeclared
    have hprefixed : Hex.decode ("0x" ++ Hex.encode vectorPubkey.1) = .error (.invalidHexCharacter 1) := by
      decide +kernel
    cases hprefixed.symm.trans hdecode
  · cases hnamed.version

theorem imported_keystore_lost :
    (∀ json, (afterImport json).importing = .imported ∧ (afterImport json).stores.files.keystore = some json) ∧
      ∀ form ∈ refusedForms,
        prepareImport vectorPrimitives vectorParse sampleConfig (vectorJson form.1 form.2) vectorPassword =
          .ok vectorPubkey ∧
        (load vectorPrimitives vectorParse wildcardOnly none
          (some (sampleDirectory (vectorJson form.1 form.2)))).toOption.map
            (fun manager => manager.contains vectorPubkey) = some false := by
  refine ⟨fun json => ⟨rfl, rfl⟩, fun form hform => ?_⟩
  have hmem : form ∈ vectorForms := .tail _ hform
  refine ⟨prepareImport_vectorJson hmem, ?_⟩
  obtain ⟨manager, hload, hcontains⟩ : ∃ manager, load vectorPrimitives vectorParse wildcardOnly none
      (some (sampleDirectory (vectorJson form.1 form.2))) = .ok manager ∧ _ :=
    contains_load (mem_singleton_self _) rfl rfl (extension_keystoreFileName vectorPubkey)
  have hpassword :
      ∀ declared ∈ form.1, (wildcardOnly declared).or (wildcardOnly wildcardKey) = some vectorPassword := by
    intro declared _
    cases hlookup : wildcardOnly declared with
    | none => exact wildcardOnly_wildcardKey
    | some other => exact congrArg some (eq_of_mem_wildcardOnly hlookup)
  have hlost : manager.contains vectorPubkey = false := by
    refine Bool.eq_false_iff.mpr fun hfound => not_bootReadable_of_mem hform ?_
    obtain ⟨entry, hentry, hloaded⟩ := (hcontains vectorPubkey).mp hfound
    cases mem_singleton.mp hentry
    refine (loads_importedEntry (vectorParse_vectorJson form hmem) (decrypt_vectorKeystore form.1 form.2) rfl hpassword
      ?_).mp hloaded
    rintro deny ⟨⟩
  rw [hload]
  exact congrArg some hlost

end Restart

end Rvc.KeymanagerAdapters
