import Rvc.Crypto.Keystore

/-!
# Loading the keystore directory

`KeyManager::load_from_directory_with_threads_filtered`. A scan of the directory makes a task of each file with the
extension `json` that reads as a valid keystore, declares a public key that is not denylisted, and has a password; a
task succeeds if the keystore decrypts to the key that it declares. What is not a task, or fails, is logged and
skipped. So the manager contains a public key exactly if some file loads it (`contains_load`).
-/

namespace Rvc.Crypto

open Rvc.Lib List

variable {SK PK : Type}

def wildcardKey : String := "*"

/-- The extension of a file name: what follows its last dot, unless that is its first character. -/
def extension (fileName : String) : Option String :=
  let reversed := fileName.toList.reverse
  match reversed.dropWhile (· ≠ '.') with
  | _ :: _ :: _ => some (String.ofList (reversed.takeWhile (· ≠ '.')).reverse)
  | _ => none

theorem extension_json {stem : String} (h : stem ≠ "") : extension (stem ++ ".json") = some "json" := by
  have hreversed : (stem ++ ".json").toList.reverse = 'n' :: 'o' :: 's' :: 'j' :: '.' :: stem.toList.reverse := by
    rw [String.toList_append, reverse_append]
    rfl
  have hstem : stem.toList.reverse ≠ [] := by
    rw [Ne, reverse_eq_nil_iff, String.toList_eq_nil_iff]
    exact h
  obtain ⟨last, rest, hrest⟩ := exists_cons_of_ne_nil hstem
  simp only [extension, hreversed, hrest]
  rfl

def stripZeroX : List Char → List Char
  | '0' :: 'x' :: rest => rest
  | text => text

/-- An entry of the directory as boot finds it: whether it resolves inside the directory, whether it is a file, and its
text if it can be read. -/
structure DirEntry where
  fileName : String
  inside : Bool
  isFile : Bool
  text : Option String
  deriving DecidableEq

structure Directory where
  entries : List DirEntry
  names_nodup : (entries.map DirEntry.fileName).Nodup

structure DecryptionTask where
  keystore : Keystore
  password : List UInt8
  declaredPubkeyHex : String
  deriving DecidableEq

inductive DecryptionOutcome (SK : Type) where
  | success (pubkeyBytes : Hex.Bytes 48) (secretKey : SK)
  | failure (pubkeyHex : String) (error : KeystoreError ⊕ String)

inductive KeyManagerError where
  | directoryNotFound
  | noKeystoreFiles
  deriving DecidableEq

structure Scan where
  tasks : List DecryptionTask
  foundAnyKeystore : Bool
  denylistSkipped : Nat
  deriving DecidableEq

structure KeyManager (SK : Type) where
  keys : List (Hex.Bytes 48 × SK)

namespace KeyManager

def new : KeyManager SK := ⟨[]⟩

def insert (manager : KeyManager SK) (pubkey : Hex.Bytes 48) (secretKey : SK) : KeyManager SK :=
  ⟨(pubkey, secretKey) :: manager.keys.filter fun key => key.1 ≠ pubkey⟩

def contains (manager : KeyManager SK) (pubkey : Hex.Bytes 48) : Bool := manager.keys.any fun key => key.1 = pubkey

section

variable (P : Primitives SK PK) (parse : String → Except String Keystore) (passwords : String → Option String)
  (denylist : Option (Hex.Bytes 48 → Bool))

/-- A declared public key is denylisted; a prefix `0x` is ignored. -/
def isDenylisted (pubkeyHex : String) : Bool :=
  match denylist with
  | none => false
  | some deny =>
    match Hex.decode (String.ofList (stripZeroX pubkeyHex.toList)) with
    | .ok bytes => if hlength : bytes.length = 48 then deny ⟨bytes, hlength⟩ else false
    | .error _ => false

def keystoreFromFile (entry : DirEntry) : Except KeystoreError Keystore :=
  match entry.text with
  | none => .error .io
  | some json => Keystore.fromJson parse json

def scanEntry (scan : Scan) (entry : DirEntry) : Scan :=
  if entry.inside = false ∨ entry.isFile = false ∨ extension entry.fileName ≠ some "json" then scan
  else
    let scan := { scan with foundAnyKeystore := true }
    match keystoreFromFile parse entry with
    | .error _ => scan
    | .ok keystore =>
      match keystore.pubkey with
      | none => scan
      | some pubkeyHex =>
        if isDenylisted denylist pubkeyHex then { scan with denylistSkipped := scan.denylistSkipped + 1 }
        else
          match (passwords pubkeyHex).or (passwords wildcardKey) with
          | none => scan
          | some password =>
            { scan with tasks := scan.tasks ++ [⟨keystore, password.toUTF8.toList, pubkeyHex⟩] }

def scanDirectory (directory : Directory) : Scan :=
  directory.entries.foldl (scanEntry parse passwords denylist) ⟨[], false, 0⟩

def decryptTask (task : DecryptionTask) : DecryptionOutcome SK :=
  match task.keystore.decrypt P task.password with
  | .error e => .failure task.declaredPubkeyHex (.inl e)
  | .ok secretKey =>
    let derived := P.publicKey secretKey
    match Hex.decode task.declaredPubkeyHex with
    | .error _ => .failure task.declaredPubkeyHex (.inr "invalid pubkey hex")
    | .ok expectedBytes =>
      match P.publicKeyFromBytes expectedBytes with
      | none => .failure task.declaredPubkeyHex (.inr "invalid pubkey format")
      | some expected =>
        if P.toBytes derived ≠ P.toBytes expected then
          let derivedHex := Hex.encode (P.toBytes derived).1
          .failure task.declaredPubkeyHex
            (.inr s!"pubkey mismatch: declared {task.declaredPubkeyHex} but derived {derivedHex}")
        else .success (P.toBytes derived) secretKey

def aggregate (manager : KeyManager SK) : DecryptionOutcome SK → KeyManager SK
  | .success pubkeyBytes secretKey => manager.insert pubkeyBytes secretKey
  | .failure _ _ => manager

/-- `load_from_directory_with_threads_filtered`; there is no directory at a path that is missing or a file. -/
def load (directory : Option Directory) : Except KeyManagerError (KeyManager SK) :=
  match directory with
  | none => .error .directoryNotFound
  | some directory =>
    let scan := scanDirectory parse passwords denylist directory
    if scan.foundAnyKeystore = false then .error .noKeystoreFiles
    else if scan.tasks = [] ∧ 0 < scan.denylistSkipped then .ok new
    else .ok ((scan.tasks.map (decryptTask P)).foldl aggregate new)

end

/-! ### The scan -/

section

variable {P : Primitives SK PK} {parse : String → Except String Keystore} {passwords : String → Option String}
  {denylist : Option (Hex.Bytes 48 → Bool)} {entry : DirEntry} {pubkey : Hex.Bytes 48}

structure IsTask (parse : String → Except String Keystore) (passwords : String → Option String)
    (denylist : Option (Hex.Bytes 48 → Bool)) (entry : DirEntry) (task : DecryptionTask) : Prop where
  inside : entry.inside = true
  isFile : entry.isFile = true
  json : extension entry.fileName = some "json"
  keystore : keystoreFromFile parse entry = .ok task.keystore
  declared : task.keystore.pubkey = some task.declaredPubkeyHex
  allowed : isDenylisted denylist task.declaredPubkeyHex = false
  password : ((passwords task.declaredPubkeyHex).or (passwords wildcardKey)).map (·.toUTF8.toList) = some task.password

variable {task : DecryptionTask} {scan : Scan}

theorem mem_scanEntry : task ∈ (scanEntry parse passwords denylist scan entry).tasks ↔
      task ∈ scan.tasks ∨ IsTask parse passwords denylist entry task := by
  unfold scanEntry
  split
  · next hskip =>
    refine ⟨.inl, fun h => h.resolve_right fun htask => ?_⟩
    rcases hskip with hinside | hfile | hjson
    · exact Bool.false_ne_true (hinside.symm.trans htask.inside)
    · exact Bool.false_ne_true (hfile.symm.trans htask.isFile)
    · exact hjson htask.json
  · next hskip =>
    simp only [not_or, Bool.not_eq_false, not_not] at hskip
    split
    · next hkeystore =>
      exact ⟨.inl, fun h => h.resolve_right fun htask => nomatch hkeystore.symm.trans htask.keystore⟩
    · next keystore hkeystore =>
      have hsame : ∀ {task : DecryptionTask}, IsTask parse passwords denylist entry task → keystore = task.keystore :=
        fun htask => Except.ok.inj (hkeystore.symm.trans htask.keystore)
      split
      · next hnone =>
        refine ⟨.inl, fun h => h.resolve_right fun htask => ?_⟩
        have hsome := htask.declared
        rw [← hsame htask, hnone] at hsome
        cases hsome
      · next pubkeyHex hdeclared =>
        have hhex : ∀ {task : DecryptionTask}, IsTask parse passwords denylist entry task →
            pubkeyHex = task.declaredPubkeyHex := fun htask =>
          Option.some.inj (hdeclared.symm.trans (hsame htask ▸ htask.declared))
        split
        · next hdenied =>
          refine ⟨.inl, fun h => h.resolve_right fun htask => ?_⟩
          have hallowed := htask.allowed
          rw [← hhex htask, hdenied] at hallowed
          cases hallowed
        · next hallowed =>
          split
          · next hnone =>
            refine ⟨.inl, fun h => h.resolve_right fun htask => ?_⟩
            have hpassword := htask.password
            rw [← hhex htask, hnone] at hpassword
            cases hpassword
          · next password hpassword =>
            rw [mem_append, mem_singleton]
            refine or_congr_right ⟨?_, fun htask => ?_⟩
            · rintro rfl
              exact ⟨hskip.1, hskip.2.1, hskip.2.2, hkeystore, hdeclared, Bool.not_eq_true _ ▸ hallowed,
                by rw [hpassword]; rfl⟩
            · have hbytes := htask.password
              rw [← hhex htask, hpassword] at hbytes
              obtain ⟨keystore', password', hex'⟩ := task
              cases hsame htask
              cases hhex htask
              cases Option.some.inj hbytes
              rfl

theorem mem_scan {entries : List DirEntry} : task ∈ (entries.foldl (scanEntry parse passwords denylist) scan).tasks ↔
      task ∈ scan.tasks ∨ ∃ entry ∈ entries, IsTask parse passwords denylist entry task := by
  induction entries generalizing scan with
  | nil => simp
  | cons entry entries ih =>
    rw [foldl_cons, ih, mem_scanEntry, or_assoc]
    simp only [mem_cons, exists_eq_or_imp]

theorem foundAnyKeystore_scanEntry (h : scan.foundAnyKeystore = true) :
    (scanEntry parse passwords denylist scan entry).foundAnyKeystore = true := by
  unfold scanEntry
  repeat' first
    | exact h
    | rfl
    | split

theorem foundAnyKeystore_scan {entries : List DirEntry} (h : scan.foundAnyKeystore = true ∨
      ∃ entry ∈ entries, entry.inside = true ∧ entry.isFile = true ∧ extension entry.fileName = some "json") :
    (entries.foldl (scanEntry parse passwords denylist) scan).foundAnyKeystore = true := by
  induction entries generalizing scan with
  | nil => exact h.resolve_right nofun
  | cons entry entries ih =>
    refine ih ?_
    rcases h with h | ⟨other, hother, hinside, hfile, hjson⟩
    · exact .inl (foundAnyKeystore_scanEntry h)
    · rcases mem_cons.mp hother with rfl | hother
      · left
        unfold scanEntry
        rw [if_neg (by simp [hinside, hfile, hjson])]
        repeat' first
          | rfl
          | split
      · exact .inr ⟨other, hother, hinside, hfile, hjson⟩

/-! ### The tasks -/

/-- The text is hex of a public key, in one of its encodings. -/
def HexOf (P : Primitives SK PK) (text : String) (pubkey : Hex.Bytes 48) : Prop :=
  ∃ bytes key, Hex.decode text = .ok bytes ∧ P.publicKeyFromBytes bytes = some key ∧ P.toBytes key = pubkey

theorem decryptTask_eq_success {secretKey : SK} : decryptTask P task = .success pubkey secretKey ↔
      task.keystore.decrypt P task.password = .ok secretKey ∧ P.toBytes (P.publicKey secretKey) = pubkey ∧
        HexOf P task.declaredPubkeyHex pubkey := by
  unfold decryptTask
  split
  · next hdecrypt => exact ⟨nofun, fun h => nomatch hdecrypt.symm.trans h.1⟩
  · next secretKey' hdecrypt =>
    simp only
    split
    · next hhex =>
      refine ⟨nofun, fun ⟨_, _, bytes, _, hdecode, _⟩ => ?_⟩
      cases hhex.symm.trans hdecode
    · next expectedBytes hhex =>
      split
      · next hnone =>
        refine ⟨nofun, fun ⟨_, _, bytes, key, hdecode, hkey, _⟩ => ?_⟩
        cases hhex.symm.trans hdecode
        cases hnone.symm.trans hkey
      · next expected hexpected =>
        split_ifs with hsame
        · refine ⟨nofun, fun ⟨hok, hpubkey, bytes, key, hdecode, hkey, hbytes⟩ => ?_⟩
          cases hdecrypt.symm.trans hok
          cases hhex.symm.trans hdecode
          cases hexpected.symm.trans hkey
          exact absurd (hpubkey.trans hbytes.symm) hsame
        · rw [not_not] at hsame
          constructor
          · intro h
            cases h
            exact ⟨hdecrypt, rfl, expectedBytes, expected, hhex, hexpected, hsame.symm⟩
          · rintro ⟨hok, hpubkey, -⟩
            cases hdecrypt.symm.trans hok
            rw [hpubkey]

theorem stripZeroX_of_decode {text : String} {bytes : List UInt8} (h : Hex.decode text = .ok bytes) :
    stripZeroX text.toList = text.toList := by
  unfold stripZeroX
  split
  · next rest hrest =>
    have hx := (Hex.decode_eq_ok h).2 'x' (by rw [hrest]; simp)
    cases hx
  · rfl

theorem isDenylisted_of_hexOf {text : String} (h : HexOf P text pubkey)
    (hallowed : ∀ deny ∈ denylist, deny pubkey = false) : isDenylisted denylist text = false := by
  obtain ⟨bytes, key, hdecode, hkey, hpubkey⟩ := h
  unfold isDenylisted
  cases denylist with
  | none => rfl
  | some deny =>
    simp only [stripZeroX_of_decode hdecode, String.ofList_toList, hdecode]
    split_ifs with hlength
    · have hbytes : (⟨bytes, hlength⟩ : Hex.Bytes 48) = pubkey :=
        Subtype.ext ((P.toBytes_fromBytes hkey hlength).symm.trans (congrArg Subtype.val hpubkey))
      rw [hbytes]
      exact hallowed deny rfl
    · rfl

/-! ### The keys -/

theorem contains_insert {manager : KeyManager SK} {other : Hex.Bytes 48} {secretKey : SK} :
    (manager.insert other secretKey).contains pubkey = true ↔ other = pubkey ∨ manager.contains pubkey = true := by
  simp only [contains, insert, any_cons, any_filter, Bool.or_eq_true, decide_eq_true_eq, any_eq_true, Bool.and_eq_true]
  constructor
  · rintro (h | ⟨key, hkey, -, hpubkey⟩)
    · exact .inl h
    · exact .inr ⟨key, hkey, hpubkey⟩
  · rintro (h | ⟨key, hkey, hpubkey⟩)
    · exact .inl h
    · by_cases hother : other = pubkey
      · exact .inl hother
      · exact .inr ⟨key, hkey, fun heq => hother (heq.symm.trans hpubkey), hpubkey⟩

theorem contains_aggregate {outcomes : List (DecryptionOutcome SK)} {manager : KeyManager SK} :
    (outcomes.foldl aggregate manager).contains pubkey = true ↔
      manager.contains pubkey = true ∨ ∃ secretKey, .success pubkey secretKey ∈ outcomes := by
  induction outcomes generalizing manager with
  | nil => simp
  | cons outcome outcomes ih =>
    rw [foldl_cons, ih]
    cases outcome with
    | failure pubkeyHex error => simp [aggregate]
    | success other secretKey =>
      simp only [aggregate, contains_insert, mem_cons, DecryptionOutcome.success.injEq]
      constructor
      · rintro ((rfl | h) | ⟨secret, h⟩)
        · exact .inr ⟨secretKey, .inl ⟨rfl, rfl⟩⟩
        · exact .inl h
        · exact .inr ⟨secret, .inr h⟩
      · rintro (h | ⟨secret, ⟨rfl, -⟩ | h⟩)
        · exact .inl (.inr h)
        · exact .inl (.inl rfl)
        · exact .inr ⟨secret, h⟩

def Loads (P : Primitives SK PK) (parse : String → Except String Keystore) (passwords : String → Option String)
    (denylist : Option (Hex.Bytes 48 → Bool)) (entry : DirEntry) (pubkey : Hex.Bytes 48) : Prop :=
  ∃ task secretKey, IsTask parse passwords denylist entry task ∧ decryptTask P task = .success pubkey secretKey

theorem loads_iff {directory : Directory} :
    (∃ entry ∈ directory.entries, Loads P parse passwords denylist entry pubkey) ↔
      ∃ secretKey, .success pubkey secretKey ∈
        (scanDirectory parse passwords denylist directory).tasks.map (decryptTask P) := by
  simp only [Loads, scanDirectory, mem_map, mem_scan, not_mem_nil, false_or]
  constructor
  · rintro ⟨entry, hentry, task, secretKey, htask, hsuccess⟩
    exact ⟨secretKey, task, ⟨entry, hentry, htask⟩, hsuccess⟩
  · rintro ⟨secretKey, task, ⟨entry, hentry, htask⟩, hsuccess⟩
    exact ⟨entry, hentry, task, secretKey, htask, hsuccess⟩

theorem contains_load {directory : Directory} (hentry : entry ∈ directory.entries) (hinside : entry.inside = true)
    (hfile : entry.isFile = true) (hjson : extension entry.fileName = some "json") :
    ∃ manager, load P parse passwords denylist (some directory) = .ok manager ∧
      ∀ pubkey, manager.contains pubkey = true ↔
        ∃ entry ∈ directory.entries, Loads P parse passwords denylist entry pubkey := by
  have hfound : (scanDirectory parse passwords denylist directory).foundAnyKeystore = true :=
    foundAnyKeystore_scan (.inr ⟨entry, hentry, hinside, hfile, hjson⟩)
  simp only [load, hfound, Bool.true_eq_false, if_false]
  split_ifs with hempty
  · refine ⟨new, rfl, fun pubkey => ?_⟩
    rw [loads_iff, hempty.1]
    simp [new, contains]
  · refine ⟨_, rfl, fun pubkey => ?_⟩
    rw [contains_aggregate, loads_iff]
    simp [new, contains]

end

end KeyManager

end Rvc.Crypto
