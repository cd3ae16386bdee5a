import Mathlib.Data.List.Dedup
import Rvc.Lib.Hex
import Rvc.Lib.Table

/-!
# Keystores of the remote signer

`BasicSigner` maps public keys to secret keys. `load` and the scan of a reload pass read the public key off
the decrypted secret, but the pass then looks a new key up again by its file name and enters whatever secret
that file holds. `reload_keys_correct_iff` says which directories that is harmless in.

The directory may change between any two reads: a pass is given the directory as each of its reads finds it.
-/

namespace Rvc.SignerServer

open Rvc.Lib List Option

/-! ### Files -/

abbrev PubkeyBytes := Hex.Bytes 48

inductive SigningBackendError where
  | keyNotFound (pubkey : PubkeyBytes)
  | signingFailed (message : String)
  | keystoreLoadFailed (message : String)
  deriving DecidableEq

/-- What `Keystore::from_file` and `decrypt` make of a file under the signer's password. -/
inductive KeystoreFile (SK : Type) where
  | unreadable (message : String)
  | locked (message : String)
  | unlocked (secretKey : SK)

structure DirEntry (SK : Type) where
  name : String
  isFile : Bool
  keystore : KeystoreFile SK

/-- A directory at one moment: what `read_dir` lists, which paths exist and what opening them gives. -/
structure Directory (SK : Type) where
  listing : Except String (List (Except String (DirEntry SK)))
  pathExists : String → Bool
  readKeystore : String → KeystoreFile SK

def pathExtension (name : String) : Option String :=
  match name.toList.reverse.dropWhile (· ≠ '.') with
  | [] => none
  | [_] => none
  | _ :: _ :: _ => some (String.ofList (name.toList.reverse.takeWhile (· ≠ '.')).reverse)

def DirEntry.isKeystoreFile {SK : Type} (entry : DirEntry SK) : Bool :=
  entry.isFile && pathExtension entry.name = some "json"

structure Metadata where
  isDir : Bool
  mode : Nat
  uid : Nat

def octal (n : Nat) : String := String.ofList (Nat.toDigits 8 n)

def checkKeystoreDirPerms (dir : String) (stat : Except String Metadata) (euid : Nat) : Except String Unit :=
  match stat with
  | .error e => .error ("cannot stat " ++ dir ++ ": " ++ e)
  | .ok metadata =>
      if !metadata.isDir then
        .error (dir ++ " is not a directory")
      else if metadata.mode &&& 0o777 ≠ 0o700 then
        .error ("expected mode 0o700 on keystore dir, got 0o" ++ octal (metadata.mode &&& 0o777))
      else if metadata.uid ≠ euid then
        .error ("keystore dir owner uid=" ++ toString metadata.uid ++ " does not match signer uid=" ++ toString euid)
      else
        .ok ()

/-! ### The signer -/

/-- `BasicSigner`; the per-key mutex orders signatures and holds no data. -/
structure BasicSigner (SK : Type) where
  keys : Table PubkeyBytes SK

section

variable {SK : Type} (publicKey : SK → PubkeyBytes)

def loadKeystoreFromFile (path : String) : KeystoreFile SK → Except SigningBackendError (SK × PubkeyBytes)
  | .unreadable message =>
      .error (.keystoreLoadFailed ("failed to load keystore " ++ path ++ ": " ++ message))
  | .locked message =>
      .error (.keystoreLoadFailed ("failed to decrypt keystore " ++ path ++ ": " ++ message))
  | .unlocked secretKey => .ok (secretKey, publicKey secretKey)

def loadEntries (dirName : String) : List (Except String (DirEntry SK)) → Table PubkeyBytes SK →
    Except SigningBackendError (Table PubkeyBytes SK)
  | [], keys => .ok keys
  | .error e :: _, _ => .error (.keystoreLoadFailed ("failed to read entry: " ++ e))
  | .ok entry :: rest, keys =>
      if entry.isKeystoreFile then
        match loadKeystoreFromFile publicKey (dirName ++ "/" ++ entry.name) entry.keystore with
        | .ok (secretKey, pubkey) => loadEntries dirName rest (keys.insert pubkey secretKey)
        | .error e => .error e
      else
        loadEntries dirName rest keys

def BasicSigner.load (dirName : String) (dir : Directory SK) : Except SigningBackendError (BasicSigner SK) :=
  match dir.listing with
  | .error e => .error (.keystoreLoadFailed ("failed to read directory " ++ dirName ++ ": " ++ e))
  | .ok entries => (loadEntries publicKey dirName entries ∅).map BasicSigner.mk

def BasicSigner.sign (signWith : SK → Hex.Bytes 32 → Hex.Bytes 96) (signer : BasicSigner SK)
    (signingRoot : Hex.Bytes 32) (pubkey : PubkeyBytes) : Except SigningBackendError (Hex.Bytes 96) :=
  match signer.keys.lookup pubkey with
  | none => .error (.keyNotFound pubkey)
  | some secretKey => .ok (signWith secretKey signingRoot)

inductive KeyOp (SK : Type) where
  | addKey (pubkey : PubkeyBytes) (secretKey : SK)
  | removeKey (pubkey : PubkeyBytes)

def BasicSigner.apply (signer : BasicSigner SK) : KeyOp SK → BasicSigner SK
  | .addKey pubkey secretKey => ⟨signer.keys.insert pubkey secretKey⟩
  | .removeKey pubkey => ⟨signer.keys.erase pubkey⟩

/-- The states that a sequence of writes goes through, the first and the last included. -/
def BasicSigner.states : BasicSigner SK → List (KeyOp SK) → List (BasicSigner SK)
  | signer, [] => [signer]
  | signer, op :: rest => signer :: BasicSigner.states (signer.apply op) rest

/-! ### A reload pass -/

/-- The public keys of the keystores that load; one unreadable entry fails the scan. -/
def scanEntries (dirName : String) : List (Except String (DirEntry SK)) → Except String (List PubkeyBytes)
  | [] => .ok []
  | .error e :: _ => .error e
  | .ok entry :: rest =>
      if entry.isKeystoreFile then
        match loadKeystoreFromFile publicKey (dirName ++ "/" ++ entry.name) entry.keystore with
        | .ok (_, pubkey) => (scanEntries dirName rest).map (pubkey :: ·)
        | .error _ => scanEntries dirName rest
      else
        scanEntries dirName rest

def scanDirectory (dirName : String) (dir : Directory SK) : Except String (List PubkeyBytes) :=
  match dir.listing with
  | .error e => .error e
  | .ok entries => scanEntries publicKey dirName entries

def tryEntry (dirName : String) (target : PubkeyBytes) : Except String (DirEntry SK) → Option SK
  | .error _ => none
  | .ok entry =>
      if entry.isKeystoreFile then
        match loadKeystoreFromFile publicKey (dirName ++ "/" ++ entry.name) entry.keystore with
        | .ok (secretKey, pubkey) => if pubkey = target then some secretKey else none
        | .error _ => none
      else
        none

def tryLoadPubkey (dirName : String) (dir : Directory SK) (target : PubkeyBytes) : Option SK :=
  match dir.listing with
  | .error _ => none
  | .ok entries => entries.findSome? (tryEntry publicKey dirName target)

/-- What the reads of one pass find: the permission check, the scan, and for each key to add the check
whether its file exists and the load. -/
structure PassView (SK : Type) where
  stat : Except String Metadata
  euid : Nat
  scanned : Directory SK
  probed : PubkeyBytes → Directory SK
  loaded : PubkeyBytes → Directory SK

def keystoreFilename (pubkey : PubkeyBytes) : String := Hex.encode pubkey.1 ++ ".json"

/-- The secret key a pass finds for a public key it wants to add. -/
def findSecret (dirName : String) (view : PassView SK) (pubkey : PubkeyBytes) : Option SK :=
  if !(view.probed pubkey).pathExists (keystoreFilename pubkey) then
    tryLoadPubkey publicKey dirName (view.loaded pubkey) pubkey
  else
    match loadKeystoreFromFile publicKey (dirName ++ "/" ++ keystoreFilename pubkey)
        ((view.loaded pubkey).readKeystore (keystoreFilename pubkey)) with
    | .ok (secretKey, _) => some secretKey
    | .error _ => none

def onDisk (dirName : String) (view : PassView SK) : Option (List PubkeyBytes) :=
  match checkKeystoreDirPerms dirName view.stat view.euid with
  | .error _ => none
  | .ok () => (scanDirectory publicKey dirName view.scanned).toOption

/-- `on_disk.difference(&loaded_pubkeys)`. The keys are distinct, so their order does not matter. -/
def toAdd (signer : BasicSigner SK) (diskPubkeys : List PubkeyBytes) : List PubkeyBytes :=
  diskPubkeys.dedup.filter fun pubkey => pubkey ∉ signer.keys.keys

def toRemove (signer : BasicSigner SK) (diskPubkeys : List PubkeyBytes) : List PubkeyBytes :=
  signer.keys.keys.filter fun pubkey => pubkey ∉ diskPubkeys

def passOps (dirName : String) (signer : BasicSigner SK) (view : PassView SK) : List (KeyOp SK) :=
  match onDisk publicKey dirName view with
  | none => []
  | some diskPubkeys =>
      ((toAdd signer diskPubkeys).filterMap fun pubkey =>
        (findSecret publicKey dirName view pubkey).map (.addKey pubkey)) ++
      (toRemove signer diskPubkeys).map .removeKey

def scanAndReload (dirName : String) (signer : BasicSigner SK) (view : PassView SK) : BasicSigner SK :=
  (passOps publicKey dirName signer view).foldl BasicSigner.apply signer

/-- The states of the key map over a number of passes, those inside a pass included. -/
def reachedStates (dirName : String) : BasicSigner SK → List (PassView SK) → List (BasicSigner SK)
  | signer, [] => [signer]
  | signer, view :: rest =>
      signer.states (passOps publicKey dirName signer view) ++
        reachedStates dirName (scanAndReload publicKey dirName signer view) rest

/-! ### Which key signs -/

def BasicSigner.Correct (signer : BasicSigner SK) : Prop :=
  ∀ pubkey secretKey, signer.keys.lookup pubkey = some secretKey → publicKey secretKey = pubkey

/-- For every key the pass adds, the file named after it holds no other key. -/
def NamesHonest (dirName : String) (signer : BasicSigner SK) (view : PassView SK) : Prop :=
  ∀ diskPubkeys, onDisk publicKey dirName view = some diskPubkeys → ∀ pubkey ∈ toAdd signer diskPubkeys,
    (view.probed pubkey).pathExists (keystoreFilename pubkey) = true →
    ∀ secretKey, (view.loaded pubkey).readKeystore (keystoreFilename pubkey) = .unlocked secretKey →
      publicKey secretKey = pubkey

def NamesHonestRun (dirName : String) : BasicSigner SK → List (PassView SK) → Prop
  | _, [] => True
  | signer, view :: rest => NamesHonest publicKey dirName signer view ∧
      NamesHonestRun dirName (scanAndReload publicKey dirName signer view) rest

variable {publicKey} {dirName : String} {signer : BasicSigner SK} {view : PassView SK}

theorem BasicSigner.Correct.insert_iff (h : signer.Correct publicKey) (pubkey : PubkeyBytes) (secretKey : SK) :
    (BasicSigner.mk (signer.keys.insert pubkey secretKey)).Correct publicKey ↔
      publicKey secretKey = pubkey := by
  constructor
  · intro hcorrect
    exact hcorrect pubkey secretKey (AList.lookup_insert _)
  · rintro hkey other sk hlookup
    by_cases hother : other = pubkey
    · subst hother
      rw [AList.lookup_insert] at hlookup
      exact some.inj hlookup ▸ hkey
    · rw [AList.lookup_insert_ne hother] at hlookup
      exact h other sk hlookup

theorem BasicSigner.Correct.erase (h : signer.Correct publicKey) (pubkey : PubkeyBytes) :
    (BasicSigner.mk (signer.keys.erase pubkey)).Correct publicKey := by
  intro other sk hlookup
  by_cases hother : other = pubkey
  · rw [hother, AList.lookup_erase] at hlookup
    cases hlookup
  · rw [AList.lookup_erase_ne hother] at hlookup
    exact h other sk hlookup

theorem loadEntries_correct {entries : List (Except String (DirEntry SK))}
    {keys keys' : Table PubkeyBytes SK} (hkeys : (BasicSigner.mk keys).Correct publicKey)
    (h : loadEntries publicKey dirName entries keys = .ok keys') :
    (BasicSigner.mk keys').Correct publicKey := by
  induction entries generalizing keys with
  | nil => exact Except.ok.inj h ▸ hkeys
  | cons entry rest ih =>
    cases entry with
    | error e => cases h
    | ok entry =>
      rw [loadEntries] at h
      split at h
      · cases hfile : entry.keystore with
        | unreadable message | locked message => simp [loadKeystoreFromFile, hfile] at h
        | unlocked secretKey =>
          simp only [loadKeystoreFromFile, hfile] at h
          exact ih ((hkeys.insert_iff _ _).mpr rfl) h
      · exact ih hkeys h

open BasicSigner

theorem BasicSigner.load_correct {dir : Directory SK}
    (h : BasicSigner.load publicKey dirName dir = .ok signer) : signer.Correct publicKey := by
  unfold load at h
  cases hlisting : dir.listing with
  | error e =>
    rw [hlisting] at h
    cases h
  | ok entries =>
    rw [hlisting] at h
    cases hload : loadEntries publicKey dirName entries ∅ with
    | error e =>
      simp only [hload] at h
      cases h
    | ok keys =>
      simp only [hload] at h
      cases h
      exact loadEntries_correct (by simp [BasicSigner.Correct]) hload

open KeyOp

/-- A pass keeps every state correct if and only if each key it adds is the one it is added as. -/
theorem states_correct_iff (h : signer.Correct publicKey) (ops : List (KeyOp SK)) :
    (∀ s ∈ signer.states ops, s.Correct publicKey) ↔
      ∀ pubkey secretKey, .addKey pubkey secretKey ∈ ops → publicKey secretKey = pubkey := by
  induction ops generalizing signer with
  | nil => simpa [states] using h
  | cons op rest ih =>
    rw [states, forall_mem_cons]
    cases op with
    | addKey pubkey secretKey =>
      constructor
      · rintro ⟨-, hall⟩ pk sk hmem
        have hhead : (signer.apply (.addKey pubkey secretKey)).Correct publicKey :=
          hall _ (by cases rest <;> simp [states])
        rcases mem_cons.mp hmem with heq | hmem
        · obtain ⟨rfl, rfl⟩ := addKey.inj heq
          exact (h.insert_iff _ _).mp hhead
        · exact (ih hhead).mp hall pk sk hmem
      · intro hadds
        have hhead : (signer.apply (.addKey pubkey secretKey)).Correct publicKey :=
          (h.insert_iff _ _).mpr (hadds pubkey secretKey mem_cons_self)
        exact ⟨h, (ih hhead).mpr fun pk sk hmem => hadds pk sk (mem_cons_of_mem _ hmem)⟩
    | removeKey pubkey =>
      have hhead : (signer.apply (.removeKey pubkey)).Correct publicKey := h.erase pubkey
      rw [ih hhead]
      simp [h]

theorem tryLoadPubkey_correct {dir : Directory SK} {target : PubkeyBytes} {secretKey : SK}
    (h : tryLoadPubkey publicKey dirName dir target = some secretKey) : publicKey secretKey = target := by
  unfold tryLoadPubkey at h
  split at h
  · cases h
  · obtain ⟨entry, -, htry⟩ := exists_of_findSome?_eq_some h
    cases entry with
    | error e => cases htry
    | ok entry =>
      rw [tryEntry] at htry
      by_cases hkeystore : entry.isKeystoreFile = true
      · rw [if_pos hkeystore] at htry
        cases hfile : entry.keystore with
        | unreadable message | locked message => simp [loadKeystoreFromFile, hfile] at htry
        | unlocked sk =>
          simp only [loadKeystoreFromFile, hfile, ite_none_right_eq_some, some.injEq] at htry
          exact htry.2 ▸ htry.1
      · rw [if_neg hkeystore] at htry
        cases htry

theorem findSecret_correct_iff (pubkey : PubkeyBytes) :
    (∀ secretKey, findSecret publicKey dirName view pubkey = some secretKey → publicKey secretKey = pubkey) ↔
      ((view.probed pubkey).pathExists (keystoreFilename pubkey) = true →
        ∀ secretKey, (view.loaded pubkey).readKeystore (keystoreFilename pubkey) = .unlocked secretKey →
          publicKey secretKey = pubkey) := by
  unfold findSecret
  by_cases hexists : (view.probed pubkey).pathExists (keystoreFilename pubkey) = true
  · simp only [hexists, Bool.not_true, Bool.false_eq_true, if_false, true_imp_iff]
    cases (view.loaded pubkey).readKeystore (keystoreFilename pubkey) with
    | unreadable message | locked message | unlocked sk => simp [loadKeystoreFromFile]
  · simp only [hexists, Bool.not_false, if_true, Bool.false_eq_true, false_imp_iff, iff_true]
    exact fun secretKey h => tryLoadPubkey_correct h

/-- **One pass.** -/
theorem pass_correct_iff (h : signer.Correct publicKey) :
    (∀ s ∈ signer.states (passOps publicKey dirName signer view), s.Correct publicKey) ↔
      NamesHonest publicKey dirName signer view := by
  rw [states_correct_iff h]
  unfold passOps NamesHonest
  cases hdisk : onDisk publicKey dirName view with
  | none => simp
  | some diskPubkeys =>
    have hadd : ∀ pubkey secretKey, addKey pubkey secretKey ∈ ((toAdd signer diskPubkeys).filterMap fun pubkey =>
          (findSecret publicKey dirName view pubkey).map (addKey pubkey)) ++
        (toRemove signer diskPubkeys).map removeKey ↔
        pubkey ∈ toAdd signer diskPubkeys ∧ findSecret publicKey dirName view pubkey = some secretKey := by
      intro pubkey secretKey
      simp only [mem_append, mem_filterMap, map_eq_some_iff, addKey.injEq,
        List.mem_map, reduceCtorEq, and_false, exists_false, or_false]
      constructor
      · rintro ⟨pk, hpk, sk, hsk, rfl, rfl⟩
        exact ⟨hpk, hsk⟩
      · rintro ⟨hpk, hsk⟩
        exact ⟨pubkey, hpk, secretKey, hsk, rfl, rfl⟩
    simp only [hadd, some.injEq, forall_eq']
    constructor
    · intro hall pubkey hpubkey
      exact (findSecret_correct_iff pubkey).mp fun sk hsk => hall pubkey sk ⟨hpubkey, hsk⟩
    · rintro hall pubkey sk ⟨hpubkey, hsk⟩
      exact (findSecret_correct_iff pubkey).mpr (hall pubkey hpubkey) sk hsk

theorem BasicSigner.foldl_mem_states (signer : BasicSigner SK) (ops : List (KeyOp SK)) :
    ops.foldl BasicSigner.apply signer ∈ signer.states ops := by
  induction ops generalizing signer with
  | nil => exact mem_singleton.mpr rfl
  | cons op rest ih => exact mem_cons_of_mem _ (ih (signer.apply op))

/-- **All passes.** -/
theorem reachedStates_correct_iff (h : signer.Correct publicKey) (views : List (PassView SK)) :
    (∀ s ∈ reachedStates publicKey dirName signer views, s.Correct publicKey) ↔
      NamesHonestRun publicKey dirName signer views := by
  induction views generalizing signer with
  | nil => simpa [reachedStates, NamesHonestRun] using h
  | cons view rest ih =>
    rw [reachedStates, forall_mem_append, pass_correct_iff h]
    refine and_congr_right fun hhonest => ih ?_
    exact (pass_correct_iff h).mpr hhonest _ (signer.foldl_mem_states _)

end

/-- **The key that signs.** From a loaded signer, over any number of passes and any changes of the
directory: every entry is the key it is stored under in every state exactly when, whenever a pass adds a key
whose file name exists, that file holds no other key. Then a signature for `pubkey` is made with its key. -/
theorem reload_keys_correct_iff {SK : Type} (publicKey : SK → PubkeyBytes)
    (signWith : SK → Hex.Bytes 32 → Hex.Bytes 96) (dirName : String) (dir : Directory SK)
    {signer : BasicSigner SK} (hload : BasicSigner.load publicKey dirName dir = .ok signer)
    (views : List (PassView SK)) : ((∀ s ∈ reachedStates publicKey dirName signer views, s.Correct publicKey) ↔
      NamesHonestRun publicKey dirName signer views) ∧ (NamesHonestRun publicKey dirName signer views →
      ∀ s ∈ reachedStates publicKey dirName signer views, ∀ signingRoot pubkey signature,
        s.sign signWith signingRoot pubkey = .ok signature →
        ∃ secretKey, publicKey secretKey = pubkey ∧ signature = signWith secretKey signingRoot) := by
  have hiff : (∀ s ∈ reachedStates publicKey dirName signer views, s.Correct publicKey) ↔
      NamesHonestRun publicKey dirName signer views :=
    reachedStates_correct_iff (BasicSigner.load_correct hload) views
  refine ⟨hiff, fun hhonest s hs signingRoot pubkey signature hsign => ?_⟩
  unfold BasicSigner.sign at hsign
  cases hkey : s.keys.lookup pubkey with
  | none =>
    rw [hkey] at hsign
    cases hsign
  | some secretKey =>
    rw [hkey] at hsign
    exact ⟨secretKey, hiff.mpr hhonest s hs pubkey secretKey hkey, (Except.ok.inj hsign).symm⟩

/-! ### Two files with swapped names -/

def Directory.ofFiles (files : List (String × PubkeyBytes)) : Directory PubkeyBytes where
  listing := .ok (files.map fun file => .ok ⟨file.1, true, .unlocked file.2⟩)
  pathExists name := files.any fun file => file.1 = name
  readKeystore name :=
    match files.find? fun file => file.1 = name with
    | some file => .unlocked file.2
    | none => .unreadable "No such file or directory (os error 2)"

def PassView.steady (dir : Directory PubkeyBytes) : PassView PubkeyBytes :=
  ⟨.ok ⟨true, 0o40700, 1000⟩, 1000, dir, fun _ => dir, fun _ => dir⟩

def keyA : PubkeyBytes := ⟨List.replicate 48 1, rfl⟩

def keyB : PubkeyBytes := ⟨List.replicate 48 2, rfl⟩

/-- With a file that is named after its key, the pass adds that key. -/
theorem reload_keys_correct_iff_honest :
    (scanAndReload id "keys" ⟨∅⟩ (.steady (.ofFiles [(keystoreFilename keyA, keyA)]))).keys.lookup keyA = some keyA ∧
      ∀ s ∈ reachedStates id "keys" ⟨∅⟩ [.steady (.ofFiles [(keystoreFilename keyA, keyA)])], s.Correct id := by
  refine ⟨by decide +kernel, ?_⟩
  have hload : BasicSigner.load id "keys" (.ofFiles []) = .ok ⟨∅⟩ := rfl
  refine (reload_keys_correct_iff id (fun _ _ => ⟨List.replicate 96 0, rfl⟩) "keys" (.ofFiles []) hload _).1.mpr
    ⟨fun disk hdisk pubkey hpubkey hexists secretKey hread => ?_, trivial⟩
  have hname : keystoreFilename keyA = keystoreFilename pubkey := by
    simpa [PassView.steady, Directory.ofFiles] using hexists
  simp only [PassView.steady, Directory.ofFiles, List.find?_cons, hname, decide_true,
    KeystoreFile.unlocked.injEq] at hread
  have hbytes : keyA = pubkey := by
    have hlists := congrArg String.toList hname
    simp only [keystoreFilename, String.toList_append, append_cancel_right_eq] at hlists
    exact Subtype.ext (Hex.encode_injective (String.toList_injective hlists))
  rw [← hread, hbytes]
  rfl

/-- **Swapped names.** Each key is entered with the other's secret, and signs with it. -/
theorem reload_signs_with_other_key :
    let view := PassView.steady (.ofFiles [(keystoreFilename keyA, keyB), (keystoreFilename keyB, keyA)])
    BasicSigner.load id "keys" (.ofFiles []) = .ok ⟨∅⟩ ∧ keyA ≠ keyB ∧
      (scanAndReload id "keys" ⟨∅⟩ view).keys.lookup keyA = some keyB ∧
      (scanAndReload id "keys" ⟨∅⟩ view).keys.lookup keyB = some keyA ∧
      ∀ signWith signingRoot, (scanAndReload id "keys" ⟨∅⟩ view).sign signWith signingRoot keyA =
        .ok (signWith keyB signingRoot) := by
  have hA : (scanAndReload id "keys" ⟨∅⟩ (.steady (.ofFiles [(keystoreFilename keyA, keyB),
      (keystoreFilename keyB, keyA)]))).keys.lookup keyA = some keyB := by decide +kernel
  refine ⟨rfl, by decide, hA, by decide +kernel, fun signWith signingRoot => ?_⟩
  rw [BasicSigner.sign, hA]

end Rvc.SignerServer
