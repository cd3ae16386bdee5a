import Mathlib.Algebra.Ring.Nat
import Rvc.Lib.Hex
import Rvc.Lib.Steps
import Rvc.Lib.Table

/-!
# The validator store and its file

`ValidatorStore`: the rows of the running process, and the validators file they are written to. A change that
makes signing safer is published before it is written, any other is written before it is published. Every
write, and every removal of the file from the boot path, may end in each of its ways.
-/

namespace Rvc.ValidatorStore

open Rvc.Lib Rvc.Lib.Steps

/-! ### Rows -/

abbrev Pubkey := Hex.Bytes 48

inductive BlockSelectionMode where
  | maxProfit
  | executionOnly
  | builderAlways
  | builderOnly
  deriving DecidableEq

/-- `ValidatorConfig`. Its `pubkey` is the key it is stored under; `fee_recipient` and `graffiti` are left
out. -/
structure ValidatorConfig where
  gasLimit : Option Nat
  builderProposals : Bool
  builderBoostFactor : Option Nat
  enabled : Bool
  doppelgangerHoldUntil : Option Nat
  blockSelectionMode : Option BlockSelectionMode
  builders : Option (List String)
  minBid : Option Nat
  deriving DecidableEq

def ValidatorConfig.new : ValidatorConfig := ⟨none, false, none, true, none, none, none, none⟩

structure ValidatorConfigUpdate where
  gasLimit : Option (Option Nat)
  builderProposals : Option Bool
  builderBoostFactor : Option Nat
  blockSelectionMode : Option (Option BlockSelectionMode)
  builders : Option (List String)
  minBid : Option Nat

abbrev Rows := Table Pubkey ValidatorConfig

section

variable (pubkey : Pubkey)

def modifyRow (f : ValidatorConfig → ValidatorConfig) (rows : Rows) : Rows :=
  match rows.lookup pubkey with
  | some config => rows.insert pubkey (f config)
  | none => rows

def publishEnabled (enabled : Bool) : Rows → Rows :=
  modifyRow pubkey fun config => { config with enabled := enabled, doppelgangerHoldUntil := none }

def publishDoppelgangerHold (untilUnix : Nat) : Rows → Rows :=
  modifyRow pubkey fun config =>
    { config with enabled := false, doppelgangerHoldUntil := some untilUnix }

def ValidatorConfigUpdate.apply (update : ValidatorConfigUpdate) (config : ValidatorConfig) : ValidatorConfig :=
  { config with
    gasLimit := update.gasLimit.getD config.gasLimit
    builderProposals := update.builderProposals.getD config.builderProposals
    builderBoostFactor := update.builderBoostFactor.or config.builderBoostFactor
    blockSelectionMode := update.blockSelectionMode.getD config.blockSelectionMode
    builders := update.builders.or config.builders
    minBid := update.minBid.or config.minBid }

def applyUpdateLocked (update : ValidatorConfigUpdate) : Rows → Rows :=
  modifyRow pubkey update.apply

end

/-! ### Checks -/

inductive ValidatorStoreError where
  | builderUrlTooLong (raw : String)
  | malformedBuilderUrl (raw : String)
  | builderUrlScheme (raw : String)
  | exceedsI64 (field : String) (value : Nat)
  | missingValidatorsConfig
  | notFound
  | write
  deriving DecidableEq

inductive WriteOutcome where
  | success
  | preRename
  | postRename
  deriving DecidableEq

/-- How the file leaves the boot path: it is moved, or else truncated, or neither works. -/
inductive QuarantineOutcome where
  | moved
  | truncated
  | failed
  deriving DecidableEq

/-- URLs as the `url` crate reads them, by scheme and whether there is a host; and how the `n`-th write and
the `n`-th quarantine end. -/
structure Env where
  parseUrl : String → Option (String × Bool)
  write : Nat → WriteOutcome
  quarantine : Nat → QuarantineOutcome

def maxBuilderUrlSize : Nat := 2048

def ensureTomlU64 (field : String) (value : Nat) : Except ValidatorStoreError Unit :=
  if 2 ^ 63 - 1 < value then .error (.exceedsI64 field value) else .ok ()

def ensureTomlOption (field : String) : Option Nat → Except ValidatorStoreError Unit
  | some value => ensureTomlU64 field value
  | none => .ok ()

section

variable (env : Env)

def validateBuilderUrl (raw : String) : Except ValidatorStoreError Unit :=
  if maxBuilderUrlSize < raw.utf8ByteSize then
    .error (.builderUrlTooLong raw)
  else
    match env.parseUrl raw with
    | none => .error (.malformedBuilderUrl raw)
    | some (scheme, hasHost) =>
        if scheme ≠ "http" ∧ scheme ≠ "https" then
          .error (.builderUrlScheme raw)
        else if !hasHost then
          .error (.malformedBuilderUrl raw)
        else
          .ok ()

def validateBuilderUrls (urls : List String) : Except ValidatorStoreError Unit :=
  urls.forM (validateBuilderUrl env)

def validateBuildersOption : Option (List String) → Except ValidatorStoreError Unit
  | some urls => validateBuilderUrls env urls
  | none => .ok ()

/-- `validate_validator_ingress`, which `parse_validator` ends with too. -/
def validateValidatorIngress (config : ValidatorConfig) : Except ValidatorStoreError Unit := do
  validateBuildersOption env config.builders
  ensureTomlOption "gas_limit" config.gasLimit
  ensureTomlOption "builder_boost_factor" config.builderBoostFactor
  ensureTomlOption "min_bid" config.minBid

def validateUpdateIngress (update : ValidatorConfigUpdate) : Except ValidatorStoreError Unit := do
  validateBuildersOption env update.builders
  ensureTomlOption "gas_limit" (update.gasLimit.getD none)
  ensureTomlOption "builder_boost_factor" update.builderBoostFactor
  ensureTomlOption "min_bid" update.minBid

/-! ### The file -/

structure TomlValidator where
  pubkey : Pubkey
  gasLimit : Option Nat
  builderProposals : Option Bool
  builderBoostFactor : Option Nat
  enabled : Option Bool
  doppelgangerHoldUntil : Option Nat
  blockSelectionMode : Option BlockSelectionMode
  builders : Option (List String)
  minBid : Option Nat

abbrev Document := List TomlValidator

inductive ValidatorsFile where
  | missing
  | empty
  | document (doc : Document)

/-- The process, its file and the clock. Without a process there are no rows. -/
structure World where
  running : Bool
  configPath : Bool
  rows : Rows
  file : ValidatorsFile
  clock : Nat
  writes : Nat
  quarantines : Nat

def World.isSigningEnabled (w : World) (pubkey : Pubkey) : Bool :=
  w.running && match w.rows.lookup pubkey with
    | some config => config.enabled
    | none => false

def ValidatorConfig.toToml (pubkey : Pubkey) (config : ValidatorConfig) : TomlValidator where
  pubkey := pubkey
  gasLimit := config.gasLimit
  builderProposals := some config.builderProposals
  builderBoostFactor := config.builderBoostFactor
  enabled := some config.enabled
  doppelgangerHoldUntil := config.doppelgangerHoldUntil
  blockSelectionMode := config.blockSelectionMode
  builders := config.builders
  minBid := config.minBid

def snapshotToml (rows : Rows) : Document := rows.entries.map fun entry => entry.2.toToml entry.1

def TomlValidator.config (v : TomlValidator) : ValidatorConfig where
  gasLimit := v.gasLimit
  builderProposals := v.builderProposals.getD false
  builderBoostFactor := v.builderBoostFactor
  enabled := v.enabled.getD true
  doppelgangerHoldUntil := v.doppelgangerHoldUntil
  blockSelectionMode := v.blockSelectionMode
  builders := v.builders
  minBid := v.minBid

def parseValidator (v : TomlValidator) : Except ValidatorStoreError (Pubkey × ValidatorConfig) := do
  validateValidatorIngress env v.config
  .ok (v.pubkey, v.config)

def parseConfig (doc : Document) : Except ValidatorStoreError (List (Pubkey × ValidatorConfig)) :=
  doc.mapM (parseValidator env)

def publish (change : Rows → Rows) : Steps World Unit := step fun w => { w with rows := change w.rows }

inductive AtomicWriteError where
  | preCommit
  | postRename
  deriving DecidableEq

def writeTomlAtomic (doc : Document) : Steps World (Except AtomicWriteError Unit) := do
  let w ← look
  match env.write w.writes with
  | .success =>
      step fun w => { w with file := .document doc, writes := w.writes + 1 }
      pure (.ok ())
  | .preRename =>
      step fun w => { w with writes := w.writes + 1 }
      pure (.error .preCommit)
  | .postRename =>
      step fun w => { w with file := .document doc, writes := w.writes + 1 }
      pure (.error .postRename)

/-- `quarantine_validators_file`, whose error is only logged. A file that is not there can be neither moved
nor opened. -/
def quarantineValidatorsFile : Steps World Unit := do
  let w ← look
  match w.file, env.quarantine w.quarantines with
  | .missing, _ => pure ()
  | _, .moved => step fun w => { w with file := .missing, quarantines := w.quarantines + 1 }
  | _, .truncated => step fun w => { w with file := .empty, quarantines := w.quarantines + 1 }
  | _, .failed => step fun w => { w with quarantines := w.quarantines + 1 }

def commitSnapshot (doc : Document) : Steps World (Except ValidatorStoreError Unit) := do
  match ← writeTomlAtomic env doc with
  | .ok () => pure (.ok ())
  | .error _ => pure (.error .write)

def commitLessSafe (newDoc previous : Document) : Steps World (Except ValidatorStoreError Unit) := do
  match ← writeTomlAtomic env newDoc with
  | .ok () => pure (.ok ())
  | .error .preCommit => pure (.error .write)
  | .error .postRename =>
      match ← writeTomlAtomic env previous with
      | .ok () => pure (.error .write)
      | .error .postRename => pure (.error .write)
      | .error .preCommit =>
          quarantineValidatorsFile env
          pure (.error .write)

def persistDisabledSnapshot : Steps World (Except ValidatorStoreError Unit) := do
  let w ← look
  if !w.configPath then pure (.error .missingValidatorsConfig) else commitSnapshot env (snapshotToml w.rows)

def quarantineHeldValidatorsFile : Steps World Unit := do
  let w ← look
  if !w.configPath then pure () else quarantineValidatorsFile env

/-- A disable that could not be written must not leave the hold it ended in the file. -/
def quarantineIfHeld (config : ValidatorConfig) : Steps World Unit :=
  if config.doppelgangerHoldUntil.isSome then quarantineHeldValidatorsFile env else pure ()

/-- Write the changed rows, and publish the change when the write succeeded. -/
def persistThenPublish {α : Type} (change : Rows → Rows) (value : α) : Steps World (Except ValidatorStoreError α) := do
  let w ← look
  if !w.configPath then
    publish change
    pure (.ok value)
  else
    match ← commitLessSafe env (snapshotToml (change w.rows)) (snapshotToml w.rows) with
    | .error e => pure (.error e)
    | .ok () =>
        publish change
        pure (.ok value)

/-! ### Operations -/

section

variable (pubkey : Pubkey)

def addValidatorDurable (config : ValidatorConfig) : Steps World (Except ValidatorStoreError Bool) := do
  match validateValidatorIngress env config with
  | .error e => pure (.error e)
  | .ok () =>
      let w ← look
      if (w.rows.lookup pubkey).isSome then pure (.ok false)
      else persistThenPublish env (·.insert pubkey config) true

def removeValidatorDurable : Steps World (Except ValidatorStoreError (Option ValidatorConfig)) := do
  let w ← look
  match w.rows.lookup pubkey with
  | none => pure (.ok none)
  | some config => persistThenPublish env (·.erase pubkey) (some config)

def persistSigningEnable : Steps World (Except ValidatorStoreError Unit) := do
  let w ← look
  match w.rows.lookup pubkey with
  | none => pure (.ok ())
  | some _ => persistThenPublish env (publishEnabled pubkey true) ()

/-- `persist_signing_disable`; the second value says that the listener is to run. -/
def persistSigningDisable : Steps World (Except ValidatorStoreError Unit × Bool) := do
  let w ← look
  match w.rows.lookup pubkey with
  | none => pure (.ok (), false)
  | some config =>
      publish (publishEnabled pubkey false)
      if !w.configPath then
        pure (.ok (), true)
      else
        match ← persistDisabledSnapshot env with
        | .ok () => pure (.ok (), true)
        | .error e =>
            quarantineIfHeld env config
            pure (.error e, true)

def setEnabledDurable (enabled : Bool) : Steps World (Except ValidatorStoreError Unit) := do
  if enabled then
    persistSigningEnable env pubkey
  else
    let (result, _) ← persistSigningDisable env pubkey
    pure result

/-- The attempts of `disable_slashed`; `last` is the last error. -/
def persistAttempts (last : ValidatorStoreError) : Nat → Steps World (Except ValidatorStoreError Unit)
  | 0 => pure (.error last)
  | n + 1 => do
      match ← persistDisabledSnapshot env with
      | .ok () => pure (.ok ())
      | .error e => persistAttempts e n

def slashedPersistAttempts : Nat := 3

def disableSlashed : Steps World (Except ValidatorStoreError Unit) := do
  let w ← look
  match w.rows.lookup pubkey with
  | none => pure (.ok ())
  | some config =>
      publish (publishEnabled pubkey false)
      if !w.configPath then
        persistDisabledSnapshot env
      else
        match ← persistAttempts env .missingValidatorsConfig slashedPersistAttempts with
        | .ok () => pure (.ok ())
        | .error e =>
            quarantineIfHeld env config
            pure (.error e)

def holdExisting (untilUnix : Nat) : Steps World (Except ValidatorStoreError Bool) := do
  publish (publishDoppelgangerHold pubkey untilUnix)
  let w ← look
  if !w.configPath then
    pure (.ok true)
  else
    match ← persistDisabledSnapshot env with
    | .ok () => pure (.ok true)
    | .error e =>
        quarantineHeldValidatorsFile env
        pure (.error e)

def beginDoppelgangerHold (untilUnix : Nat) : Steps World (Except ValidatorStoreError Bool) := do
  let w ← look
  match w.rows.lookup pubkey with
  | some existing =>
      match existing.enabled, existing.doppelgangerHoldUntil with
      | false, none => pure (.ok false)
      | false, some old =>
          if max old untilUnix = old then pure (.ok true)
          else holdExisting env pubkey (max old untilUnix)
      | true, _ => holdExisting env pubkey untilUnix
  | none =>
      persistThenPublish env
        (·.insert pubkey { ValidatorConfig.new with enabled := false, doppelgangerHoldUntil := some untilUnix })
        true

def releaseDoppelgangerHold : Steps World (Except ValidatorStoreError Bool) := do
  let w ← look
  match (w.rows.lookup pubkey).bind ValidatorConfig.doppelgangerHoldUntil with
  | none => pure (.ok false)
  | some untilUnix =>
      if w.clock < untilUnix then pure (.ok false)
      else persistThenPublish env (publishEnabled pubkey true) true

/-- `update_config_durable`. Nothing else changes the rows while it holds `save_lock`, so the row it
publishes to is the one it read. -/
def updateConfigDurable (update : ValidatorConfigUpdate) : Steps World (Except ValidatorStoreError Unit) := do
  match validateUpdateIngress env update with
  | .error e => pure (.error e)
  | .ok () =>
      let w ← look
      if !w.configPath then
        pure (.error .missingValidatorsConfig)
      else
        match w.rows.lookup pubkey with
        | none => pure (.error .notFound)
        | some _ => persistThenPublish env (applyUpdateLocked pubkey update) ()

end

def saveConfig : Steps World (Except ValidatorStoreError Unit) := do
  let w ← look
  if !w.configPath then pure (.error .missingValidatorsConfig) else commitSnapshot env (snapshotToml w.rows)

end

end Rvc.ValidatorStore
