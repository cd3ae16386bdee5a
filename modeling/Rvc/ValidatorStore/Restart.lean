import Rvc.ValidatorStore.Store

/-!
# Restarts

Booting reads the rows back from the validators file, enables the loaded keys the file does not know, and
enables the rows whose hold has elapsed. A run of the system is a list of events: an operation that ends, an
operation that a crash cuts short after some of its steps, and time.
-/

namespace Rvc.ValidatorStore

open Rvc.Lib Rvc.Lib.Steps

def World.initial (file : ValidatorsFile) (clock : Nat) : World := ⟨false, false, ∅, file, clock, 0, 0⟩

inductive BootError where
  | missingValidatorsConfig
  | emptyValidatorsConfig
  | validatorStoreError (error : ValidatorStoreError)
  deriving DecidableEq

/-- The map of `load_from_config`; of two rows for one key the later one stays. -/
def collectRows (configs : List (Pubkey × ValidatorConfig)) : Rows :=
  configs.foldl (fun rows entry => rows.insert entry.1 entry.2) ∅

def registerLoadedValidators (loaded : List Pubkey) (rows : Rows) : Rows :=
  loaded.foldl (fun rows pubkey => if (rows.lookup pubkey).isSome then rows else rows.insert pubkey .new) rows

section

variable (env : Env)

def retryEnable (pubkey : Pubkey) : Nat → Steps World Bool
  | 0 => pure false
  | n + 1 => do
      match ← setEnabledDurable env pubkey true with
      | .ok () => pure true
      | .error _ => retryEnable pubkey n

def reconcileHolds (nowUnix : Nat) : List (Pubkey × Nat) → Steps World (List (Pubkey × Nat))
  | [] => pure []
  | (pubkey, untilUnix) :: rest => do
      if untilUnix ≤ nowUnix then
        let released ← retryEnable env pubkey 3
        let others ← reconcileHolds nowUnix rest
        pure (if released then others else (pubkey, 0) :: others)
      else
        let others ← reconcileHolds nowUnix rest
        pure ((pubkey, untilUnix - nowUnix) :: others)

def holdsOf (rows : Rows) : List (Pubkey × Nat) :=
  rows.entries.filterMap fun entry => entry.2.doppelgangerHoldUntil.map fun untilUnix => (entry.1, untilUnix)

def reconcileDoppelgangerHoldsAtBoot (nowUnix : Nat) : Steps World (List (Pubkey × Nat)) := do
  let w ← look
  reconcileHolds env nowUnix (holdsOf w.rows)

/-- `build_validator_store` and what follows it at boot. The rows of a process that was running are gone. -/
def boot (loaded : List Pubkey) : Steps World (Except BootError (List (Pubkey × Nat))) := do
  step fun w => { w with running := false, rows := ∅ }
  let w ← look
  match w.file with
  | .missing => pure (.error .missingValidatorsConfig)
  | .empty => pure (.error .emptyValidatorsConfig)
  | .document doc =>
      match parseConfig env doc with
      | .error e => pure (.error (.validatorStoreError e))
      | .ok configs =>
          step fun w => { w with running := true, configPath := true, rows := collectRows configs }
          publish (registerLoadedValidators loaded)
          let w ← look
          let openHolds ← reconcileDoppelgangerHoldsAtBoot env w.clock
          pure (.ok openHolds)

/-! ### Runs -/

inductive Op where
  | addValidatorDurable (pubkey : Pubkey) (config : ValidatorConfig)
  | removeValidatorDurable (pubkey : Pubkey)
  | disable (pubkey : Pubkey)
  | disableSlashed (pubkey : Pubkey)
  | beginDoppelgangerHold (pubkey : Pubkey) (untilUnix : Nat)
  | releaseDoppelgangerHold (pubkey : Pubkey)
  | updateConfigDurable (pubkey : Pubkey) (update : ValidatorConfigUpdate)
  | saveConfig
  | restart (loaded : List Pubkey)

/-- What an operation answers: an error, or nothing, or whether it did something. -/
inductive Reply where
  | failed
  | done
  | flag (b : Bool)
  deriving DecidableEq

def Reply.ofUnit {ε : Type} : Except ε Unit → Reply
  | .ok () => .done
  | .error _ => .failed

def Reply.ofBool {ε : Type} : Except ε Bool → Reply
  | .ok b => .flag b
  | .error _ => .failed

def whenRunning (m : Steps World Reply) : Steps World Reply := do
  let w ← look
  if w.running then m else pure .failed

def Op.run : Op → Steps World Reply
  | addValidatorDurable pubkey config =>
      whenRunning do return .ofBool (← ValidatorStore.addValidatorDurable env pubkey config)
  | removeValidatorDurable pubkey => whenRunning do
      match ← ValidatorStore.removeValidatorDurable env pubkey with
      | .ok removed => pure (.flag removed.isSome)
      | .error _ => pure .failed
  | disable pubkey => whenRunning do return .ofUnit (← setEnabledDurable env pubkey false)
  | disableSlashed pubkey => whenRunning do return .ofUnit (← ValidatorStore.disableSlashed env pubkey)
  | beginDoppelgangerHold pubkey untilUnix =>
      whenRunning do return .ofBool (← ValidatorStore.beginDoppelgangerHold env pubkey untilUnix)
  | releaseDoppelgangerHold pubkey =>
      whenRunning do return .ofBool (← ValidatorStore.releaseDoppelgangerHold env pubkey)
  | updateConfigDurable pubkey update =>
      whenRunning do return .ofUnit (← ValidatorStore.updateConfigDurable env pubkey update)
  | saveConfig => whenRunning do return .ofUnit (← ValidatorStore.saveConfig env)
  | restart loaded => do
      match ← boot env loaded with
      | .ok _ => pure .done
      | .error _ => pure .failed

inductive Event where
  | call (op : Op)
  | crash (op : Op) (n : Nat)
  | tick (seconds : Nat)

def World.crashed (w : World) : World := { w with running := false, rows := ∅ }

def Event.run : Event → Steps World Unit
  | call op => do
      let _ ← op.run env
  | crash op n => do
      (op.run env).cut n
      step World.crashed
  | tick seconds => step fun w => { w with clock := w.clock + seconds }

def runEvents : List Event → Steps World Unit
  | [] => pure ()
  | event :: events => do
      event.run env
      runEvents events

end

end Rvc.ValidatorStore
