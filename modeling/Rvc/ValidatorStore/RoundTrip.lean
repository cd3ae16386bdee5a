import Mathlib.Data.List.DropRight
import Rvc.EthTypes.PubkeyHex
import Rvc.Lib.Utf8
import Rvc.ValidatorStore.Store

/-!
# Saving the validators file and loading it again

The whole rows and the defaults, as `snapshot_toml` writes them and `parse_config` reads them. Binary fields are
written as text: keys and addresses in hex, a graffiti as the string its bytes are, as far as they are one. What the
`toml` crate does is a parameter (`TomlCrate.Lawful`).

A store that was loaded from a file and then changed through its operations is saved and loaded again without a
difference, as long as the graffiti that came in are strings after their cut to 32 bytes and the holds are integers
that TOML has (`reachable_round_trips`).
-/

namespace Rvc.ValidatorStore.RoundTrip

open Rvc.Lib List Option AList

abbrev Text := { bytes : List UInt8 // Utf8.Valid bytes }

abbrev Graffiti := Hex.Bytes 32

abbrev Address := Hex.Bytes 20

/-! ### Rows -/

structure FullConfig extends ValidatorConfig where
  feeRecipient : Option Address
  graffiti : Option Graffiti
  deriving DecidableEq

def FullConfig.new : FullConfig := { ValidatorConfig.new with feeRecipient := none, graffiti := none }

structure FullUpdate extends ValidatorConfigUpdate where
  feeRecipient : Option (Option Address)
  graffiti : Option (Option Graffiti)

def FullUpdate.apply (update : FullUpdate) (config : FullConfig) : FullConfig :=
  { update.toValidatorConfigUpdate.apply config.toValidatorConfig with
    feeRecipient := update.feeRecipient.getD config.feeRecipient
    graffiti := update.graffiti.getD config.graffiti }

structure ValidatorDefaults where
  feeRecipient : Address
  gasLimit : Nat
  graffiti : Option Graffiti
  deriving DecidableEq

structure DefaultUpdate where
  feeRecipient : Option Address
  gasLimit : Option Nat
  graffiti : Option (Option Graffiti)

structure StoreState where
  validators : Table Pubkey FullConfig
  defaults : ValidatorDefaults

/-! ### The document -/

structure TomlDefaults where
  feeRecipient : Option String
  gasLimit : Option Nat
  graffiti : Option Text

structure TomlValidator where
  pubkey : String
  feeRecipient : Option String
  gasLimit : Option Nat
  builderProposals : Option Bool
  builderBoostFactor : Option Nat
  graffiti : Option Text
  enabled : Option Bool
  doppelgangerHoldUntil : Option Nat
  blockSelectionMode : Option BlockSelectionMode
  builders : Option (List String)
  minBid : Option Nat

structure TomlConfig where
  defaults : Option TomlDefaults
  validators : List TomlValidator

inductive Error where
  | store (e : ValidatorStoreError)
  | pubkey (e : EthTypes.ParseError)
  | hex (e : Hex.DecodeError)
  | expectedBytes (n : Nat)
  | tomlParse (e : String)
  | config (e : String)

def i64Max : Nat := 2 ^ 63 - 1

def TomlValidator.integers (v : TomlValidator) : List Nat :=
  v.gasLimit.toList ++ v.builderBoostFactor.toList ++ v.doppelgangerHoldUntil.toList ++ v.minBid.toList

def TomlConfig.integers (doc : TomlConfig) : List Nat :=
  (doc.defaults.bind TomlDefaults.gasLimit).toList ++ doc.validators.flatMap TomlValidator.integers

/-- The `toml` crate, with the texts of files that it writes and reads. -/
structure TomlCrate (File : Type) where
  toString : TomlConfig → Except String File
  fromStr : File → Except String TomlConfig

/-- What is asked of the crate. A TOML integer is an `i64`, and a document with no other integers has a text, which is
read as that document. -/
structure TomlCrate.Lawful {File : Type} (toml : TomlCrate File) : Prop where
  writes : ∀ {doc}, (∀ n ∈ doc.integers, n ≤ i64Max) → ∃ file, toml.toString doc = .ok file
  reads : ∀ {doc file}, toml.toString doc = .ok file → toml.fromStr file = .ok doc
  integers : ∀ {doc file}, toml.fromStr file = .ok doc → ∀ n ∈ doc.integers, n ≤ i64Max

variable {File : Type}

/-! ### Reading -/

def stripHexPrefix (s : String) : String :=
  match s.toList with
  | '0' :: 'x' :: rest => String.ofList rest
  | _ => s

def parseHexBytes (n : Nat) (s : String) : Except Error (Hex.Bytes n) :=
  match Hex.decode (stripHexPrefix s) with
  | .error e => .error (.hex e)
  | .ok bytes => if h : bytes.length = n then .ok ⟨bytes, h⟩ else .error (.expectedBytes n)

/-- The text cut to 32 bytes, which need not be at the end of a character, and zeros after it. -/
def parseGraffiti (s : Text) : Graffiti :=
  ⟨(s.1.take 32 ++ List.replicate 32 0).take 32, by simp⟩

def defaultFeeRecipient : Address := ⟨List.replicate 20 0, rfl⟩

def defaultGasLimit : Nat := 30000000

def parseOption {α β : Type} (parse : α → Except Error β) : Option α → Except Error (Option β)
  | some a => (parse a).map some
  | none => .ok none

section

variable (toml : TomlCrate File) (env : Env)

def parseValidator (v : TomlValidator) : Except Error (Pubkey × FullConfig) := do
  let pubkey ← (EthTypes.parsePubkeyHex v.pubkey).mapError .pubkey
  let feeRecipient ← parseOption (parseHexBytes 20) v.feeRecipient
  let config : FullConfig :=
    { gasLimit := v.gasLimit
      builderProposals := v.builderProposals.getD false
      builderBoostFactor := v.builderBoostFactor
      enabled := v.enabled.getD true
      doppelgangerHoldUntil := v.doppelgangerHoldUntil
      blockSelectionMode := v.blockSelectionMode
      builders := v.builders
      minBid := v.minBid
      feeRecipient := feeRecipient
      graffiti := v.graffiti.map parseGraffiti }
  (validateValidatorIngress env config.toValidatorConfig).mapError .store
  .ok (pubkey, config)

def parseDefaults (defaults : TomlDefaults) : Except Error ValidatorDefaults := do
  let feeRecipient ← parseOption (parseHexBytes 20) defaults.feeRecipient
  (ensureTomlOption "defaults.gas_limit" defaults.gasLimit).mapError .store
  .ok
    { feeRecipient := feeRecipient.getD defaultFeeRecipient
      gasLimit := defaults.gasLimit.getD defaultGasLimit
      graffiti := defaults.graffiti.map parseGraffiti }

def parseConfig (file : File) : Except Error (ValidatorDefaults × List (Pubkey × FullConfig)) := do
  let doc ← (toml.fromStr file).mapError .tomlParse
  let defaults ← parseDefaults (doc.defaults.getD ⟨none, none, none⟩)
  let validators ← doc.validators.mapM (parseValidator env)
  .ok (defaults, validators)

/-- The rows of a file put into a map: of two rows for one key the later one stays. -/
def insertAll (rows : List (Pubkey × FullConfig)) (t : Table Pubkey FullConfig) : Table Pubkey FullConfig :=
  rows.foldl (fun t row => t.insert row.1 row.2) t

def loadFromConfig (file : File) : Except Error StoreState := do
  let (defaults, rows) ← parseConfig toml env file
  .ok { validators := insertAll rows ∅, defaults := defaults }

end

/-! ### Writing -/

def trimmed (graffiti : Graffiti) : List UInt8 := graffiti.1.rdropWhile (· = 0)

/-- `from_utf8_lossy` of the bytes without the zeros at the end. -/
def graffitiToString (graffiti : Graffiti) : Text := ⟨Utf8.lossy (trimmed graffiti), Utf8.valid_lossy _⟩

def hexText {n : Nat} (bytes : Hex.Bytes n) : String := String.ofList ('0' :: 'x' :: (Hex.encode bytes.1).toList)

def FullConfig.toToml (pubkey : Pubkey) (config : FullConfig) : TomlValidator where
  pubkey := hexText pubkey
  feeRecipient := config.feeRecipient.map hexText
  gasLimit := config.gasLimit
  builderProposals := some config.builderProposals
  builderBoostFactor := config.builderBoostFactor
  graffiti := config.graffiti.map graffitiToString
  enabled := some config.enabled
  doppelgangerHoldUntil := config.doppelgangerHoldUntil
  blockSelectionMode := config.blockSelectionMode
  builders := config.builders
  minBid := config.minBid

def ValidatorDefaults.toToml (defaults : ValidatorDefaults) : TomlDefaults where
  feeRecipient := some (hexText defaults.feeRecipient)
  gasLimit := some defaults.gasLimit
  graffiti := defaults.graffiti.map graffitiToString

def snapshotToml (s : StoreState) : TomlConfig where
  defaults := some s.defaults.toToml
  validators := s.validators.entries.map fun entry => entry.2.toToml entry.1

/-- Saving the store and loading it gives the same defaults and, for every key, the same row. -/
def RoundTrips (toml : TomlCrate File) (env : Env) (s : StoreState) : Prop :=
  ∃ file loaded, toml.toString (snapshotToml s) = .ok file ∧ loadFromConfig toml env file = .ok loaded ∧
    loaded.defaults = s.defaults ∧ ∀ pubkey, loaded.validators.lookup pubkey = s.validators.lookup pubkey

/-! ### Operations

Each gives the result and the state in memory. `written` says whether the write of the file goes through, once the
document has a text. A store that was loaded from a file has the path of that file. -/

namespace StoreState

section

variable (pubkey : Pubkey)

def modify (f : FullConfig → FullConfig) (s : StoreState) : StoreState :=
  match s.validators.lookup pubkey with
  | some config => { s with validators := s.validators.insert pubkey (f config) }
  | none => s

def insertValidator (config : FullConfig) (s : StoreState) : StoreState :=
  { s with validators := s.validators.insert pubkey config }

def takeValidator (s : StoreState) : StoreState :=
  { s with validators := s.validators.erase pubkey }

def publishEnabled (enabled : Bool) : StoreState → StoreState :=
  modify pubkey fun config => { config with enabled := enabled, doppelgangerHoldUntil := none }

def publishDoppelgangerHold (untilUnix : Nat) : StoreState → StoreState :=
  modify pubkey fun config => { config with enabled := false, doppelgangerHoldUntil := some untilUnix }

def applyUpdateLocked (update : FullUpdate) : StoreState → StoreState :=
  modify pubkey update.apply

end

variable (toml : TomlCrate File)

def save (written : Bool) (s : StoreState) : Except Error Unit := do
  let _ ← (toml.toString (snapshotToml s)).mapError .config
  if written then .ok () else .error (.store .write)

/-- A change that makes signing less safe: published only when its document is on disk. -/
def persistThenPublish {α : Type} (change : StoreState → StoreState) (written : Bool) (value : α) (s : StoreState) :
    Except Error α × StoreState :=
  match (change s).save toml written with
  | .ok () => (.ok value, change s)
  | .error e => (.error e, s)

/-- A disable: published first, and it stays when the write fails. -/
def publishThenPersist {α : Type} (change : StoreState → StoreState) (written : Bool) (value : α) (s : StoreState) :
    Except Error α × StoreState :=
  (((change s).save toml written).map fun _ => value, change s)

section

variable (env : Env)

def reloadConfig (file : File) (s : StoreState) : Except Error Unit × StoreState :=
  match parseConfig toml env file with
  | .error e => (.error e, s)
  | .ok (defaults, rows) => (.ok (), { validators := insertAll rows s.validators, defaults := defaults })

section

variable (pubkey : Pubkey) (config : FullConfig)

def addValidator (s : StoreState) : Except Error Unit × StoreState :=
  match validateValidatorIngress env config.toValidatorConfig with
  | .error e => (.error (.store e), s)
  | .ok () => (.ok (), s.insertValidator pubkey config)

def addValidatorDurable (written : Bool) (s : StoreState) : Except Error Bool × StoreState :=
  match validateValidatorIngress env config.toValidatorConfig with
  | .error e => (.error (.store e), s)
  | .ok () =>
    if (s.validators.lookup pubkey).isSome then (.ok false, s)
    else s.persistThenPublish toml (insertValidator pubkey config) written true

def removeValidator (s : StoreState) : Option FullConfig × StoreState :=
  (s.validators.lookup pubkey, s.takeValidator pubkey)

def removeValidatorDurable (written : Bool) (s : StoreState) : Except Error (Option FullConfig) × StoreState :=
  match s.validators.lookup pubkey with
  | none => (.ok none, s)
  | some config => s.persistThenPublish toml (takeValidator pubkey) written (some config)

def setEnabled (enabled : Bool) (s : StoreState) : StoreState := s.publishEnabled pubkey enabled

def setEnabledDurable (enabled written : Bool) (s : StoreState) : Except Error Unit × StoreState :=
  match s.validators.lookup pubkey with
  | none => (.ok (), s)
  | some _ =>
    if enabled then s.persistThenPublish toml (publishEnabled pubkey true) written ()
    else s.publishThenPersist toml (publishEnabled pubkey false) written ()

def disableSlashed (written : Bool) (s : StoreState) : Except Error Unit × StoreState :=
  match s.validators.lookup pubkey with
  | none => (.ok (), s)
  | some _ => s.publishThenPersist toml (publishEnabled pubkey false) written ()

def beginDoppelgangerHold (untilUnix : Nat) (written : Bool) (s : StoreState) : Except Error Bool × StoreState :=
  match s.validators.lookup pubkey with
  | some existing =>
    match existing.enabled, existing.doppelgangerHoldUntil with
    | false, none => (.ok false, s)
    | false, some old =>
      if max old untilUnix = old then (.ok true, s)
      else s.publishThenPersist toml (publishDoppelgangerHold pubkey (max old untilUnix)) written true
    | true, _ => s.publishThenPersist toml (publishDoppelgangerHold pubkey untilUnix) written true
  | none =>
    s.persistThenPublish toml
      (insertValidator pubkey { FullConfig.new with enabled := false, doppelgangerHoldUntil := some untilUnix }) written
      true

def releaseDoppelgangerHold (now : Nat) (written : Bool) (s : StoreState) : Except Error Bool × StoreState :=
  match (s.validators.lookup pubkey).bind fun config => config.doppelgangerHoldUntil with
  | none => (.ok false, s)
  | some untilUnix =>
    if now < untilUnix then (.ok false, s) else s.persistThenPublish toml (publishEnabled pubkey true) written true

def updateConfig (update : FullUpdate) (s : StoreState) : Except Error Unit × StoreState :=
  match validateUpdateIngress env update.toValidatorConfigUpdate with
  | .error e => (.error (.store e), s)
  | .ok () => (.ok (), s.applyUpdateLocked pubkey update)

def updateConfigDurable (update : FullUpdate) (written : Bool) (s : StoreState) : Except Error Unit × StoreState :=
  match validateUpdateIngress env update.toValidatorConfigUpdate with
  | .error e => (.error (.store e), s)
  | .ok () =>
    match s.validators.lookup pubkey with
    | none => (.error (.store .notFound), s)
    | some _ => s.persistThenPublish toml (applyUpdateLocked pubkey update) written ()

end

def applyDefaultUpdate (update : DefaultUpdate) (s : StoreState) : Except Error Unit × StoreState :=
  match ensureTomlOption "gas_limit" update.gasLimit with
  | .error e => (.error (.store e), s)
  | .ok () =>
    (.ok (), { s with defaults :=
      { feeRecipient := update.feeRecipient.getD s.defaults.feeRecipient
        gasLimit := update.gasLimit.getD s.defaults.gasLimit
        graffiti := update.graffiti.getD s.defaults.graffiti } })

def setDefaultGraffiti (graffiti : Graffiti) (s : StoreState) : StoreState :=
  { s with defaults := { s.defaults with graffiti := some graffiti } }

end

end StoreState

inductive Call (File : Type) where
  | reloadConfig (file : File)
  | addValidator (pubkey : Pubkey) (config : FullConfig)
  | addValidatorDurable (pubkey : Pubkey) (config : FullConfig) (written : Bool)
  | removeValidator (pubkey : Pubkey)
  | removeValidatorDurable (pubkey : Pubkey) (written : Bool)
  | setEnabled (pubkey : Pubkey) (enabled : Bool)
  | setEnabledDurable (pubkey : Pubkey) (enabled written : Bool)
  | disableSlashed (pubkey : Pubkey) (written : Bool)
  | beginDoppelgangerHold (pubkey : Pubkey) (untilUnix : Nat) (written : Bool)
  | releaseDoppelgangerHold (pubkey : Pubkey) (now : Nat) (written : Bool)
  | updateConfig (pubkey : Pubkey) (update : FullUpdate)
  | updateConfigDurable (pubkey : Pubkey) (update : FullUpdate) (written : Bool)
  | applyDefaultUpdate (update : DefaultUpdate)
  | setDefaultGraffiti (graffiti : Graffiti)

def Call.run (toml : TomlCrate File) (env : Env) (call : Call File) (s : StoreState) : StoreState :=
  match call with
  | .reloadConfig file => (s.reloadConfig toml env file).2
  | .addValidator pubkey config => (s.addValidator env pubkey config).2
  | .addValidatorDurable pubkey config written => (s.addValidatorDurable toml env pubkey config written).2
  | .removeValidator pubkey => (s.removeValidator pubkey).2
  | .removeValidatorDurable pubkey written => (s.removeValidatorDurable toml pubkey written).2
  | .setEnabled pubkey enabled => s.setEnabled pubkey enabled
  | .setEnabledDurable pubkey enabled written => (s.setEnabledDurable toml pubkey enabled written).2
  | .disableSlashed pubkey written => (s.disableSlashed toml pubkey written).2
  | .beginDoppelgangerHold pubkey untilUnix written => (s.beginDoppelgangerHold toml pubkey untilUnix written).2
  | .releaseDoppelgangerHold pubkey now written => (s.releaseDoppelgangerHold toml pubkey now written).2
  | .updateConfig pubkey update => (s.updateConfig env pubkey update).2
  | .updateConfigDurable pubkey update written => (s.updateConfigDurable toml env pubkey update written).2
  | .applyDefaultUpdate update => (s.applyDefaultUpdate update).2
  | .setDefaultGraffiti graffiti => s.setDefaultGraffiti graffiti

def StoreState.runAll (toml : TomlCrate File) (env : Env) (calls : List (Call File)) (s : StoreState) : StoreState :=
  calls.foldl (fun s call => call.run toml env s) s

/-! ### What comes in -/

def IsText (graffiti : Graffiti) : Prop := Utf8.Valid (trimmed graffiti)

instance (graffiti : Graffiti) : Decidable (IsText graffiti) := inferInstanceAs (Decidable (Utf8.Valid _))

structure TomlConfig.Meets (doc : TomlConfig) : Prop where
  defaults : ∀ defaults ∈ doc.defaults, ∀ text ∈ defaults.graffiti, IsText (parseGraffiti text)
  validators : ∀ v ∈ doc.validators, ∀ text ∈ v.graffiti, IsText (parseGraffiti text)

structure FullConfig.Meets (config : FullConfig) : Prop where
  hold : ∀ untilUnix ∈ config.doppelgangerHoldUntil, untilUnix ≤ i64Max
  graffiti : ∀ graffiti ∈ config.graffiti, IsText graffiti

/-- What a call brings in: graffiti that are strings, and holds that TOML has an integer for. -/
def Call.Meets (toml : TomlCrate File) : Call File → Prop
  | .reloadConfig file => ∀ doc, toml.fromStr file = .ok doc → doc.Meets
  | .addValidator _ config => config.Meets
  | .addValidatorDurable _ config _ => config.Meets
  | .beginDoppelgangerHold _ untilUnix _ => untilUnix ≤ i64Max
  | .updateConfig _ update => ∀ graffiti ∈ update.graffiti.getD none, IsText graffiti
  | .updateConfigDurable _ update _ => ∀ graffiti ∈ update.graffiti.getD none, IsText graffiti
  | .applyDefaultUpdate update => ∀ graffiti ∈ update.graffiti.getD none, IsText graffiti
  | .setDefaultGraffiti graffiti => IsText graffiti
  | _ => True

/-! ### Reading back what was written -/

theorem stripHexPrefix_hexText {n : Nat} (bytes : Hex.Bytes n) :
    stripHexPrefix (hexText bytes) = Hex.encode bytes.1 := by
  simp only [stripHexPrefix, hexText, String.toList_ofList, String.ofList_toList]

theorem parseHexBytes_hexText {n : Nat} (bytes : Hex.Bytes n) : parseHexBytes n (hexText bytes) = .ok bytes := by
  rw [parseHexBytes, stripHexPrefix_hexText, Hex.decode_encode]
  exact dif_pos bytes.2

theorem parseOption_map {α β : Type} {parse : α → Except Error β} {write : β → α}
    (h : ∀ b, parse (write b) = .ok b) (o : Option β) : parseOption parse (o.map write) = .ok o := by
  cases o with
  | none => rfl
  | some b => simp only [map_some, parseOption, h, Except.map]

theorem trimmed_append_zeros (graffiti : Graffiti) : ∃ n, trimmed graffiti ++ List.replicate n 0 = graffiti.1 := by
  refine ⟨(graffiti.1.rtakeWhile (· = 0)).length, ?_⟩
  have hzeros : List.replicate (graffiti.1.rtakeWhile (· = 0)).length 0 = graffiti.1.rtakeWhile (· = 0) := by
    refine (eq_replicate_of_mem fun byte hbyte => ?_).symm
    simpa using mem_rtakeWhile_imp hbyte
  rw [hzeros, trimmed, rdropWhile_append_rtakeWhile]

theorem parseGraffiti_graffitiToString {graffiti : Graffiti} (h : IsText graffiti) :
    parseGraffiti (graffitiToString graffiti) = graffiti := by
  obtain ⟨n, hn⟩ := trimmed_append_zeros graffiti
  have hlength : (trimmed graffiti).length + n = 32 := by
    have := congrArg List.length hn
    rwa [length_append, length_replicate, graffiti.2] at this
  apply Subtype.ext
  simp only [parseGraffiti, graffitiToString, Utf8.lossy_of_valid h]
  rw [take_of_length_le (show (trimmed graffiti).length ≤ 32 by omega), take_append,
    take_of_length_le (show (trimmed graffiti).length ≤ 32 by omega), take_replicate, ← hn]
  congr 2
  omega

theorem map_parseGraffiti {o : Option Graffiti} (h : ∀ graffiti ∈ o, IsText graffiti) :
    (o.map graffitiToString).map parseGraffiti = o := by
  cases o with
  | none => rfl
  | some graffiti => rw [map_some, map_some, parseGraffiti_graffitiToString (h graffiti rfl)]

/-! ### States that can be saved -/

theorem bind_check_eq_ok {ε α : Type} {check : Except ε Unit} {next : Except ε α} {a : α} :
    (check >>= fun _ => next) = .ok a ↔ check = .ok () ∧ next = .ok a := by
  rw [bind_eq_ok]
  exact ⟨fun ⟨_, hcheck, hnext⟩ => ⟨hcheck, hnext⟩, fun ⟨hcheck, hnext⟩ => ⟨(), hcheck, hnext⟩⟩

theorem ensureTomlOption_eq_ok {field : String} {o : Option Nat} :
    ensureTomlOption field o = .ok () ↔ ∀ n ∈ o, n ≤ i64Max := by
  cases o with
  | none => simp [ensureTomlOption]
  | some n => simp [ensureTomlOption, ensureTomlU64, i64Max]

variable {s : StoreState}

section

variable {toml : TomlCrate File} {env : Env}

theorem validateValidatorIngress_eq_ok {config : ValidatorConfig} : validateValidatorIngress env config = .ok () ↔
      validateBuildersOption env config.builders = .ok () ∧ (∀ n ∈ config.gasLimit, n ≤ i64Max) ∧
        (∀ n ∈ config.builderBoostFactor, n ≤ i64Max) ∧ ∀ n ∈ config.minBid, n ≤ i64Max := by
  simp only [validateValidatorIngress, bind_check_eq_ok, ensureTomlOption_eq_ok]

variable (env)

structure RowFit (config : FullConfig) : Prop extends config.Meets where
  ingress : validateValidatorIngress env config.toValidatorConfig = .ok ()

structure DefaultsFit (defaults : ValidatorDefaults) : Prop where
  gasLimit : defaults.gasLimit ≤ i64Max
  graffiti : ∀ graffiti ∈ defaults.graffiti, IsText graffiti

structure Fit (s : StoreState) : Prop where
  rows : ∀ pubkey, ∀ config ∈ s.validators.lookup pubkey, RowFit env config
  defaults : DefaultsFit s.defaults

variable {env} {config : FullConfig}

theorem parseValidator_toToml (h : RowFit env config) (pubkey : Pubkey) :
    parseValidator env (config.toToml pubkey) = .ok (pubkey, config) := by
  have hpubkey : EthTypes.parsePubkeyHex (hexText pubkey) = .ok pubkey :=
    EthTypes.parsePubkeyHex_pubkeyToHex pubkey
  refine bind_eq_ok.mpr ⟨pubkey, mapError_eq_ok.mpr hpubkey, bind_eq_ok.mpr ⟨config.feeRecipient, ?_, ?_⟩⟩
  · exact parseOption_map parseHexBytes_hexText config.feeRecipient
  · refine bind_eq_ok.mpr ⟨(), mapError_eq_ok.mpr h.ingress, ?_⟩
    simp only [FullConfig.toToml, map_parseGraffiti h.graffiti, getD_some]

variable {defaults : ValidatorDefaults}

theorem parseDefaults_toToml (h : DefaultsFit defaults) : parseDefaults defaults.toToml = .ok defaults := by
  have hgas : ensureTomlOption "defaults.gas_limit" defaults.toToml.gasLimit = .ok () := by
    rw [ensureTomlOption_eq_ok]
    rintro _ ⟨⟩
    exact h.gasLimit
  refine bind_eq_ok.mpr ⟨some defaults.feeRecipient, ?_, bind_eq_ok.mpr ⟨(), mapError_eq_ok.mpr hgas, ?_⟩⟩
  · exact parseOption_map parseHexBytes_hexText (some defaults.feeRecipient)
  · simp only [ValidatorDefaults.toToml, map_parseGraffiti h.graffiti, getD_some]

section

variable (h : Fit env s)

include h

theorem integers_snapshotToml : ∀ n ∈ (snapshotToml s).integers, n ≤ i64Max := by
  intro n hn
  obtain hdefault | hrow := mem_append.mp hn
  · rw [mem_toList] at hdefault
    cases hdefault
    exact h.defaults.gasLimit
  · obtain ⟨v, hv, hn⟩ := mem_flatMap.mp hrow
    obtain ⟨⟨pubkey, config⟩, hentry, rfl⟩ := mem_map.mp hv
    have hfit := h.rows pubkey config (mem_lookup_iff.mpr hentry)
    obtain ⟨-, hgas, hboost, hbid⟩ := validateValidatorIngress_eq_ok.mp hfit.ingress
    simp only [TomlValidator.integers, mem_append, mem_toList] at hn
    obtain ((hn | hn) | hn) | hn := hn
    · exact hgas n hn
    · exact hboost n hn
    · exact hfit.hold n hn
    · exact hbid n hn

theorem Fit.roundTrips (htoml : toml.Lawful) : RoundTrips toml env s := by
  obtain ⟨file, hwritten⟩ := htoml.writes (integers_snapshotToml h)
  have hrows : (snapshotToml s).validators.mapM (parseValidator env) =
      .ok (s.validators.entries.map fun entry => (entry.1, entry.2)) := by
    rw [mapM_eq_ok, snapshotToml, forall₂_map_left_iff, forall₂_map_right_iff, forall₂_same]
    intro entry hentry
    exact parseValidator_toToml (h.rows entry.1 entry.2 (mem_lookup_iff.mpr hentry)) entry.1
  have hparsed : parseConfig toml env file =
      .ok (s.defaults, s.validators.entries.map fun entry => (entry.1, entry.2)) :=
    bind_eq_ok.mpr ⟨_, mapError_eq_ok.mpr (htoml.reads hwritten),
      bind_eq_ok.mpr ⟨_, parseDefaults_toToml h.defaults, bind_eq_ok.mpr ⟨_, hrows, rfl⟩⟩⟩
  refine ⟨file, _, hwritten, bind_eq_ok.mpr ⟨_, hparsed, rfl⟩, rfl, fun pubkey => ?_⟩
  rw [insertAll, foldl_map, Table.lookup_foldl_insert _ s.validators.nodupKeys, lookup_empty, or_none]
  rfl

/-! ### Operations keep states fit -/

theorem Fit.insertValidator (hconfig : RowFit env config)
    (pubkey : Pubkey) : Fit env (s.insertValidator pubkey config) := by
  refine ⟨fun key row hrow => ?_, h.defaults⟩
  by_cases hkey : key = pubkey
  · subst hkey
    rw [StoreState.insertValidator, lookup_insert] at hrow
    cases hrow
    exact hconfig
  · rw [StoreState.insertValidator, lookup_insert_ne hkey] at hrow
    exact h.rows key row hrow

theorem Fit.takeValidator (pubkey : Pubkey) : Fit env (s.takeValidator pubkey) := by
  refine ⟨fun key row hrow => ?_, h.defaults⟩
  by_cases hkey : key = pubkey
  · subst hkey
    rw [StoreState.takeValidator, lookup_erase] at hrow
    cases hrow
  · rw [StoreState.takeValidator, lookup_erase_ne hkey] at hrow
    exact h.rows key row hrow

theorem Fit.modify (pubkey : Pubkey) {f : FullConfig → FullConfig}
    (hf : ∀ config, RowFit env config → RowFit env (f config)) : Fit env (s.modify pubkey f) := by
  unfold StoreState.modify
  split
  · next config hconfig => exact h.insertValidator (hf config (h.rows pubkey config hconfig)) pubkey
  · exact h

theorem Fit.publishEnabled (pubkey : Pubkey) (enabled : Bool) : Fit env (s.publishEnabled pubkey enabled) :=
  h.modify pubkey fun _ hconfig => { hconfig with hold := fun _ hnone => (nomatch hnone) }

theorem Fit.publishDoppelgangerHold (pubkey : Pubkey) {untilUnix : Nat}
    (hhold : untilUnix ≤ i64Max) : Fit env (s.publishDoppelgangerHold pubkey untilUnix) := by
  refine h.modify pubkey fun _ hconfig => { hconfig with hold := ?_ }
  rintro _ ⟨⟩
  exact hhold

theorem Fit.persistThenPublish {change : StoreState → StoreState}
    (hchange : Fit env (change s)) {α : Type} (written : Bool) (value : α) :
    Fit env (s.persistThenPublish toml change written value).2 := by
  unfold StoreState.persistThenPublish
  split
  · exact hchange
  · exact h

theorem Fit.insertAll {rows : List (Pubkey × FullConfig)} (hrows : ∀ row ∈ rows, RowFit env row.2) :
    Fit env { s with validators := RoundTrip.insertAll rows s.validators } := by
  induction rows generalizing s with
  | nil => exact h
  | cons row rows ih =>
    have hinsert := h.insertValidator (hrows row mem_cons_self) row.1
    exact ih hinsert fun row hrow => hrows row (mem_cons_of_mem _ hrow)

end

theorem forall_mem_or {α : Type} {P : α → Prop} {a b : Option α} (ha : ∀ x ∈ a, P x) (hb : ∀ x ∈ b, P x) :
    ∀ x ∈ a.or b, P x := by
  cases a with
  | none => exact hb
  | some y => exact ha

theorem forall_mem_getD {α : Type} {P : α → Prop} {a : Option (Option α)} {b : Option α}
    (ha : ∀ x ∈ a.getD none, P x) (hb : ∀ x ∈ b, P x) : ∀ x ∈ a.getD b, P x := by
  cases a with
  | none => exact hb
  | some o => exact ha

theorem RowFit.update (h : RowFit env config) {update : FullUpdate}
    (hingress : validateUpdateIngress env update.toValidatorConfigUpdate = .ok ())
    (hgraffiti : ∀ graffiti ∈ update.graffiti.getD none, IsText graffiti) : RowFit env (update.apply config) := by
  simp only [validateUpdateIngress, bind_check_eq_ok, ensureTomlOption_eq_ok] at hingress
  obtain ⟨hbuilders, hgas, hboost, hbid⟩ := hingress
  obtain ⟨hbuilders', hgas', hboost', hbid'⟩ := validateValidatorIngress_eq_ok.mp h.ingress
  refine ⟨⟨h.hold, forall_mem_getD hgraffiti h.graffiti⟩, validateValidatorIngress_eq_ok.mpr ⟨?_, ?_⟩⟩
  · show validateBuildersOption env (update.builders.or config.builders) = .ok ()
    cases hset : update.builders with
    | none => exact hbuilders'
    | some urls => rwa [hset] at hbuilders
  · exact ⟨forall_mem_getD hgas hgas', forall_mem_or hboost hboost', forall_mem_or hbid hbid'⟩

theorem rowFit_of_parse {v : TomlValidator} {pubkey : Pubkey}
    (h : parseValidator env v = .ok (pubkey, config)) (hhold : ∀ n ∈ v.doppelgangerHoldUntil, n ≤ i64Max)
    (hgraffiti : ∀ text ∈ v.graffiti, IsText (parseGraffiti text)) : RowFit env config := by
  obtain ⟨_, -, h⟩ := bind_eq_ok.mp h
  obtain ⟨_, -, h⟩ := bind_eq_ok.mp h
  obtain ⟨_, hingress, h⟩ := bind_eq_ok.mp h
  cases h
  refine ⟨⟨hhold, fun graffiti hmem => ?_⟩, mapError_eq_ok.mp hingress⟩
  obtain ⟨text, htext, rfl⟩ := map_eq_some_iff.mp hmem
  exact hgraffiti text htext

theorem defaultsFit_of_parse {written : TomlDefaults}
    (h : parseDefaults written = .ok defaults) (hgraffiti : ∀ text ∈ written.graffiti, IsText (parseGraffiti text)) :
    DefaultsFit defaults := by
  obtain ⟨_, -, h⟩ := bind_eq_ok.mp h
  obtain ⟨_, hgas, h⟩ := bind_eq_ok.mp h
  cases h
  refine ⟨?_, fun graffiti hmem => ?_⟩
  · have hset := ensureTomlOption_eq_ok.mp (mapError_eq_ok.mp hgas)
    cases hlimit : written.gasLimit with
    | none =>
      show defaultGasLimit ≤ i64Max
      decide
    | some limit => exact hset limit hlimit
  · obtain ⟨text, htext, rfl⟩ := map_eq_some_iff.mp hmem
    exact hgraffiti text htext

theorem fit_of_parse (htoml : toml.Lawful) {file : File} (hfile : ∀ doc, toml.fromStr file = .ok doc → doc.Meets)
    {rows : List (Pubkey × FullConfig)} (h : parseConfig toml env file = .ok (defaults, rows)) :
    DefaultsFit defaults ∧ ∀ row ∈ rows, RowFit env row.2 := by
  obtain ⟨doc, hread, h⟩ := bind_eq_ok.mp h
  rw [mapError_eq_ok] at hread
  obtain ⟨_, hdefaults, h⟩ := bind_eq_ok.mp h
  obtain ⟨_, hrows, h⟩ := bind_eq_ok.mp h
  cases h
  constructor
  · refine defaultsFit_of_parse hdefaults fun text htext => ?_
    cases hset : doc.defaults with
    | none =>
      rw [hset] at htext
      cases htext
    | some written =>
      rw [hset] at htext
      exact (hfile doc hread).defaults written hset text htext
  · intro row hrow
    obtain ⟨v, hv, hparse⟩ := exists_of_mem_mapM hrows hrow
    refine rowFit_of_parse hparse (fun n hn => htoml.integers hread n ?_) ((hfile doc hread).validators v hv)
    refine mem_append_right _ (mem_flatMap.mpr ⟨v, hv, ?_⟩)
    simp only [TomlValidator.integers, mem_append, mem_toList]
    exact .inl (.inr hn)

theorem rowFit_hold {untilUnix : Nat} (h : untilUnix ≤ i64Max) :
    RowFit env { FullConfig.new with enabled := false, doppelgangerHoldUntil := some untilUnix } := by
  refine ⟨⟨?_, fun _ hnone => (nomatch hnone)⟩, rfl⟩
  rintro _ ⟨⟩
  exact h

theorem Fit.beginDoppelgangerHold (h : Fit env s) {untilUnix : Nat} (hhold : untilUnix ≤ i64Max)
    (pubkey : Pubkey) (written : Bool) : Fit env (s.beginDoppelgangerHold toml pubkey untilUnix written).2 := by
  unfold StoreState.beginDoppelgangerHold
  split
  · next existing hexisting =>
    split
    · exact h
    · next old _ hold =>
      have hold' : old ≤ i64Max := (h.rows pubkey existing hexisting).hold old hold
      split
      · exact h
      · exact h.publishDoppelgangerHold pubkey (max_le hold' hhold)
    · exact h.publishDoppelgangerHold pubkey hhold
  · exact h.persistThenPublish (h.insertValidator (rowFit_hold hhold) pubkey) written true

theorem Fit.run (htoml : toml.Lawful) (h : Fit env s) {call : Call File} (hcall : call.Meets toml) :
    Fit env (call.run toml env s) := by
  cases call with
  | reloadConfig file =>
    simp only [Call.run, StoreState.reloadConfig]
    split
    · exact h
    · next defaults rows hparsed =>
      obtain ⟨hdefaults, hrows⟩ := fit_of_parse htoml hcall hparsed
      exact ⟨(h.insertAll hrows).rows, hdefaults⟩
  | addValidator pubkey config =>
    simp only [Call.run, StoreState.addValidator]
    split
    · exact h
    · next hingress => exact h.insertValidator ⟨hcall, hingress⟩ pubkey
  | addValidatorDurable pubkey config written =>
    simp only [Call.run, StoreState.addValidatorDurable]
    split
    · exact h
    · next hingress =>
      split
      · exact h
      · exact h.persistThenPublish (h.insertValidator ⟨hcall, hingress⟩ pubkey) written true
  | removeValidator pubkey => exact h.takeValidator pubkey
  | removeValidatorDurable pubkey written =>
    simp only [Call.run, StoreState.removeValidatorDurable]
    split
    · exact h
    · exact h.persistThenPublish (h.takeValidator pubkey) written _
  | setEnabled pubkey enabled => exact h.publishEnabled pubkey enabled
  | setEnabledDurable pubkey enabled written =>
    simp only [Call.run, StoreState.setEnabledDurable]
    split
    · exact h
    · split
      · exact h.persistThenPublish (h.publishEnabled pubkey true) written ()
      · exact h.publishEnabled pubkey false
  | disableSlashed pubkey written =>
    simp only [Call.run, StoreState.disableSlashed]
    split
    · exact h
    · exact h.publishEnabled pubkey false
  | beginDoppelgangerHold pubkey untilUnix written => exact h.beginDoppelgangerHold hcall pubkey written
  | releaseDoppelgangerHold pubkey now written =>
    simp only [Call.run, StoreState.releaseDoppelgangerHold]
    split
    · exact h
    · split
      · exact h
      · exact h.persistThenPublish (h.publishEnabled pubkey true) written true
  | updateConfig pubkey update =>
    simp only [Call.run, StoreState.updateConfig]
    split
    · exact h
    · next hingress => exact h.modify pubkey fun _ hconfig => hconfig.update hingress hcall
  | updateConfigDurable pubkey update written =>
    simp only [Call.run, StoreState.updateConfigDurable]
    split
    · exact h
    · next hingress =>
      split
      · exact h
      · exact h.persistThenPublish (h.modify pubkey fun _ hconfig => hconfig.update hingress hcall) written ()
  | applyDefaultUpdate update =>
    simp only [Call.run, StoreState.applyDefaultUpdate]
    split
    · exact h
    · next hgas =>
      refine ⟨h.rows, ?_, forall_mem_getD hcall h.defaults.graffiti⟩
      have hset := ensureTomlOption_eq_ok.mp hgas
      cases hlimit : update.gasLimit with
      | none => exact h.defaults.gasLimit
      | some limit => exact hset limit hlimit
  | setDefaultGraffiti graffiti =>
    refine ⟨h.rows, h.defaults.gasLimit, ?_⟩
    rintro _ ⟨⟩
    exact hcall

theorem Fit.runAll (htoml : toml.Lawful) (h : Fit env s) {calls : List (Call File)}
    (hcalls : ∀ call ∈ calls, call.Meets toml) : Fit env (s.runAll toml env calls) := by
  induction calls generalizing s with
  | nil => exact h
  | cons call calls ih =>
    exact ih (h.run htoml (hcalls call mem_cons_self)) fun call hcall => hcalls call (mem_cons_of_mem _ hcall)

theorem fit_of_load (htoml : toml.Lawful) {file : File} (hfile : ∀ doc, toml.fromStr file = .ok doc → doc.Meets)
    (h : loadFromConfig toml env file = .ok s) : Fit env s := by
  obtain ⟨⟨defaults, rows⟩, hparsed, h⟩ := bind_eq_ok.mp h
  cases h
  obtain ⟨hdefaults, hrows⟩ := fit_of_parse htoml hfile hparsed
  have hempty : Fit env { validators := ∅, defaults := defaults } := ⟨fun _ _ hnone => (nomatch hnone), hdefaults⟩
  exact hempty.insertAll hrows

end

/-- A store that was loaded from a file and changed by any calls, of which none brings in a graffiti that is no string
or a hold that is no TOML integer, has a text, and the text is read as the same store. -/
theorem reachable_round_trips (toml : TomlCrate File) (htoml : toml.Lawful) (env : Env) (file : File) (s : StoreState)
    (calls : List (Call File)) (hload : loadFromConfig toml env file = .ok s)
    (hfile : ∀ doc, toml.fromStr file = .ok doc → doc.Meets) (hcalls : ∀ call ∈ calls, call.Meets toml) :
    RoundTrips toml env (s.runAll toml env calls) :=
  ((fit_of_load htoml hfile hload).runAll htoml hcalls).roundTrips htoml

/-- The documents that have a text, for their texts. -/
abbrev TomlFile := { doc : TomlConfig // ∀ n ∈ doc.integers, n ≤ i64Max }

def documents : TomlCrate TomlFile where
  toString doc := if h : ∀ n ∈ doc.integers, n ≤ i64Max then .ok ⟨doc, h⟩ else .error "u64 value was too large"
  fromStr file := .ok file.1

theorem documents_lawful : documents.Lawful where
  writes hdoc := ⟨_, dif_pos hdoc⟩
  reads h := by
    simp only [documents] at h
    split_ifs at h
    cases h
    rfl
  integers {_ file} h := by
    cases h
    exact file.2

def noUrls : Env := ⟨fun _ => none, fun _ => .success, fun _ => .moved⟩

def graffitiFile (text : Text) : TomlFile := ⟨⟨some ⟨none, none, some text⟩, []⟩, fun _ hmem => (nomatch hmem)⟩

def loadedFile (text : Text) : StoreState := ⟨∅, ⟨defaultFeeRecipient, defaultGasLimit, some (parseGraffiti text)⟩⟩

theorem loadFromConfig_graffitiFile (env : Env) (text : Text) :
    loadFromConfig documents env (graffitiFile text) = .ok (loadedFile text) := by
  refine bind_eq_ok.mpr ⟨((loadedFile text).defaults, []), bind_eq_ok.mpr ⟨_, rfl, ?_⟩, rfl⟩
  refine bind_eq_ok.mpr ⟨(loadedFile text).defaults, ?_, ?_⟩
  · exact bind_eq_ok.mpr ⟨none, rfl, bind_eq_ok.mpr ⟨(), rfl, rfl⟩⟩
  · exact bind_eq_ok.mpr ⟨[], rfl, rfl⟩

def shortText : Text := ⟨[0x72, 0x76, 0x63], by decide⟩

/-- One byte, then sixteen characters of two bytes: 33 bytes. -/
def cutText : Text := ⟨0x61 :: (List.replicate 16 [0xC3, 0xA9]).flatten, by decide⟩

def someKey : Pubkey := ⟨List.replicate 48 31, rfl⟩

theorem reachable_round_trips_held :
    loadFromConfig documents noUrls (graffitiFile shortText) = .ok (loadedFile shortText) ∧
      RoundTrips documents noUrls ((loadedFile shortText).runAll documents noUrls
        [.addValidator someKey FullConfig.new, .beginDoppelgangerHold someKey 1700000000 true]) := by
  have hload := loadFromConfig_graffitiFile noUrls shortText
  refine ⟨hload, reachable_round_trips documents documents_lawful noUrls (graffitiFile shortText) _ _ hload ?_ ?_⟩
  · rintro doc ⟨⟩
    refine ⟨?_, fun _ hmem => (nomatch hmem)⟩
    rintro _ ⟨⟩ _ ⟨⟩
    decide
  · intro call hcall
    obtain rfl | rfl : call = _ ∨ call = _ := by simpa using hcall
    · exact ⟨fun _ hnone => (nomatch hnone), fun _ hnone => (nomatch hnone)⟩
    · show 1700000000 ≤ i64Max
      decide

theorem RoundTrips.graffiti {toml : TomlCrate File} (htoml : toml.Lawful) {env : Env} (h : RoundTrips toml env s) :
    (s.defaults.graffiti.map graffitiToString).map parseGraffiti = s.defaults.graffiti := by
  obtain ⟨file, loaded, hfile, hload, hsame, -⟩ := h
  obtain ⟨⟨defaults, rows⟩, hparsed, hload⟩ := bind_eq_ok.mp hload
  cases hload
  obtain ⟨doc, hread, hparsed⟩ := bind_eq_ok.mp hparsed
  obtain rfl : snapshotToml s = doc := Except.ok.inj ((htoml.reads hfile).symm.trans (mapError_eq_ok.mp hread))
  obtain ⟨_, hdefaults, hparsed⟩ := bind_eq_ok.mp hparsed
  obtain ⟨_, -, hparsed⟩ := bind_eq_ok.mp hparsed
  cases hparsed
  obtain ⟨_, -, hdefaults⟩ := bind_eq_ok.mp hdefaults
  obtain ⟨_, -, hdefaults⟩ := bind_eq_ok.mp hdefaults
  have hgraffiti := congrArg ValidatorDefaults.graffiti (Except.ok.inj hdefaults)
  exact hgraffiti.trans (congrArg ValidatorDefaults.graffiti hsame)

/-- A text of a file is cut inside its last character, and the half of it does not survive a save; a hold that TOML
has no integer for is accepted, and the store has no text any more. -/
theorem cut_graffiti_and_hold_lost :
    (loadFromConfig documents noUrls (graffitiFile cutText) = .ok (loadedFile cutText) ∧
      ∀ (File : Type) (toml : TomlCrate File), toml.Lawful → ¬RoundTrips toml noUrls (loadedFile cutText)) ∧
    (loadedFile shortText).addValidator noUrls someKey { FullConfig.new with doppelgangerHoldUntil := some (2 ^ 63) } =
      (.ok (), (loadedFile shortText).insertValidator someKey
        { FullConfig.new with doppelgangerHoldUntil := some (2 ^ 63) }) ∧
    ∀ (File : Type) (toml : TomlCrate File), toml.Lawful → ∀ file,
      toml.toString (snapshotToml ((loadedFile shortText).insertValidator someKey
        { FullConfig.new with doppelgangerHoldUntil := some (2 ^ 63) })) ≠ .ok file := by
  refine ⟨⟨loadFromConfig_graffitiFile noUrls cutText, fun File toml htoml h => ?_⟩, rfl, ?_⟩
  · exact absurd (h.graffiti htoml) (by decide)
  · intro File toml htoml file hfile
    have hinteger := htoml.integers (htoml.reads hfile) (2 ^ 63) (by decide)
    exact absurd hinteger (by decide)

end Rvc.ValidatorStore.RoundTrip
