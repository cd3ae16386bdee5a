import Rvc.ValidatorStore.Restart

/-!
# The doppelganger lifecycle

`DoppelgangerLifecycle`: an import holds a key and spawns a task that enables it when the hold has elapsed; a
delete, a disable or another import cancels that task. All of this happens under `state_lock`, but the store
has a lock of its own: a disable of the store takes effect between any two steps of a section under
`state_lock`, and its listener runs only later. So a section is split at its calls into the store.
-/

namespace Rvc.KeymanagerApi

open Rvc.Lib Rvc.ValidatorStore

inductive ImportKind where
  | localKey
  | remoteKey
  deriving DecidableEq

inductive ConfigTouch where
  | apply
  | skip
  deriving DecidableEq

/-- A spawned enable task. Its cancellation token is numbered as the task is. -/
structure Task where
  pubkey : Pubkey
  kind : ImportKind
  cancelled : Bool
  finished : Bool
  deriving DecidableEq

inductive Section where
  | importing (pubkey : Pubkey) (kind : ImportKind)
  /-- `disable_for_delete`, after the cancellation: disable the row. -/
  | disabling (pubkey : Pubkey)
  | deleting (pubkey : Pubkey)
  | releasing (token : Nat) (pubkey : Pubkey)
  | released (token : Nat) (pubkey : Pubkey)
  | refused (token : Nat) (pubkey : Pubkey)
  deriving DecidableEq

structure State where
  store : World
  cancelTokens : Table Pubkey Nat
  tasks : Nat → Option Task
  nextToken : Nat
  stateLock : Option Section
  /-- Disables that were published and whose listener has not run. -/
  listeners : List Pubkey

inductive Effect where
  | imported (pubkey : Pubkey)
  /-- An import that failed; it may have published a hold with the deadline. -/
  | importFailed (pubkey : Pubkey) (untilUnix : Nat)
  | disabled (pubkey : Pubkey)
  | deleted (pubkey : Pubkey)
  | spawned (token : Nat) (pubkey : Pubkey)
  /-- A task set `enabled = true`, when the clock showed `now`. -/
  | enabled (token : Nat) (pubkey : Pubkey) (now : Nat)
  deriving DecidableEq

namespace State

def new (store : World) : State := ⟨store, ∅, fun _ => none, 0, none, []⟩

def cancel (token : Nat) (s : State) : State :=
  { s with
    tasks := Function.update s.tasks token ((s.tasks token).map fun task => { task with cancelled := true }) }

def finish (token : Nat) (s : State) : State :=
  { s with
    tasks := Function.update s.tasks token ((s.tasks token).map fun task => { task with finished := true }) }

section

variable (pubkey : Pubkey) (s : State)

def cancelEnableToken : State :=
  match s.cancelTokens.lookup pubkey with
  | some token => { s.cancel token with cancelTokens := s.cancelTokens.erase pubkey }
  | none => s

/-- Insert a new token, cancel the one it displaces, and spawn the task. -/
def spawnEnableTask (kind : ImportKind) (s : State) : State :=
  let displaced := match s.cancelTokens.lookup pubkey with
    | some token => s.cancel token
    | none => s
  { displaced with
    cancelTokens := s.cancelTokens.insert pubkey s.nextToken
    tasks := Function.update displaced.tasks s.nextToken (some ⟨pubkey, kind, false, false⟩)
    nextToken := s.nextToken + 1 }

/-- `complete_enable`: the token leaves the map uncancelled. -/
def completeEnable : State :=
  { s with cancelTokens := s.cancelTokens.erase pubkey }

def isDoppelgangerHold : Bool :=
  ((s.store.rows.lookup pubkey).bind ValidatorConfig.doppelgangerHoldUntil).isSome

end

end State

section

variable (env : Env) (window : Nat)

/-- `on_import` of a local key, up to and including the hold. -/
def importLocal (pubkey : Pubkey) (s : State) : State × Option Effect :=
  let untilUnix := min (s.store.clock + window) (2 ^ 64 - 1)
  let outcome := beginDoppelgangerHold env pubkey untilUnix s.store
  match outcome.value with
  | .ok true =>
      ({ s with store := outcome.final, stateLock := some (.importing pubkey .localKey) }, some (.imported pubkey))
  | .ok false => ({ s with store := outcome.final }, some (.imported pubkey))
  | .error _ => ({ s with store := outcome.final }, some (.importFailed pubkey untilUnix))

/-- A disable of the store; `fire` says that its listener is to run. -/
def storeDisable {α : Type} (pubkey : Pubkey) (m : Steps World α) (s : State) : State × Option Effect :=
  let fire := (s.store.rows.lookup pubkey).isSome
  let outcome := m s.store
  ({ s with
      store := outcome.final
      listeners := if fire then s.listeners ++ [pubkey] else s.listeners },
    if fire then some (.disabled pubkey) else none)

def finishDisable (pubkey : Pubkey) (s : State) : State × Option Effect :=
  let fire := (s.store.rows.lookup pubkey).isSome
  let outcome := setEnabledDurable env pubkey false s.store
  let disabled := { s with store := outcome.final, stateLock := none }
  if fire then (disabled.cancelEnableToken pubkey, some (.disabled pubkey)) else (disabled, none)

def wake (token : Nat) (task : Task) (s : State) : State × Option Effect :=
  if task.cancelled then
    (s.finish token, none)
  else
    match task.kind with
    | .localKey =>
        if s.isDoppelgangerHold task.pubkey then
          ({ s with stateLock := some (.releasing token task.pubkey) }, none)
        else
          ((s.cancelEnableToken task.pubkey).finish token, none)
    | .remoteKey => ((s.completeEnable task.pubkey).finish token, none)

/-- `release_doppelganger_hold` under `state_lock`; a failed write is tried again later. -/
def release (token : Nat) (pubkey : Pubkey) (s : State) : State × Option Effect :=
  let outcome := releaseDoppelgangerHold env pubkey s.store
  match outcome.value with
  | .ok true =>
      ({ s with store := outcome.final, stateLock := some (.released token pubkey) },
        some (.enabled token pubkey s.store.clock))
  | .ok false => ({ s with store := outcome.final, stateLock := some (.refused token pubkey) }, none)
  | .error _ => ({ s with store := outcome.final, stateLock := none }, none)

/-- A hold that was not released waits again, unless it is gone. -/
def finishRefused (token : Nat) (pubkey : Pubkey) (s : State) : State × Option Effect :=
  if s.isDoppelgangerHold pubkey then
    ({ (s.spawnEnableTask pubkey .localKey).finish token with stateLock := none }, some (.spawned s.nextToken pubkey))
  else
    ({ (s.cancelEnableToken pubkey).finish token with stateLock := none }, none)

inductive Call where
  | importLocal (pubkey : Pubkey)
  | importRemote (pubkey : Pubkey)
  | rearmPersistedHold (pubkey : Pubkey)
  | disableForDelete (pubkey : Pubkey)
  | onDelete (pubkey : Pubkey) (kind : ImportKind) (touch : ConfigTouch)
  | cancelEnableOnDisable (pubkey : Pubkey)
  | runListener (pubkey : Pubkey)
  | wake (token : Nat)

def Call.run (s : State) : Call → Option (State × Option Effect)
  | importLocal pubkey => some (KeymanagerApi.importLocal env window pubkey s)
  | importRemote pubkey =>
      some ({ s with stateLock := some (.importing pubkey .remoteKey) }, some (.imported pubkey))
  | rearmPersistedHold pubkey => some (s.spawnEnableTask pubkey .localKey, some (.spawned s.nextToken pubkey))
  | disableForDelete pubkey =>
      some ({ s.cancelEnableToken pubkey with stateLock := some (.disabling pubkey) }, none)
  | onDelete pubkey kind touch =>
      let cancelled := s.cancelEnableToken pubkey
      match kind, touch with
      | .localKey, .apply =>
          some ({ cancelled with stateLock := some (.deleting pubkey) }, some (.deleted pubkey))
      | _, _ => some (cancelled, some (.deleted pubkey))
  | cancelEnableOnDisable pubkey => some (s.cancelEnableToken pubkey, none)
  | runListener pubkey =>
      if s.listeners.contains pubkey then
        some ({ s.cancelEnableToken pubkey with listeners := s.listeners.erase pubkey }, none)
      else
        none
  | wake token =>
      match s.tasks token with
      | some task => if task.finished then none else some (KeymanagerApi.wake token task s)
      | none => none

def Section.run (s : State) : Section → State × Option Effect
  | importing pubkey kind =>
      ({ s.spawnEnableTask pubkey kind with stateLock := none }, some (.spawned s.nextToken pubkey))
  | disabling pubkey => finishDisable env pubkey s
  | deleting pubkey =>
      ({ s with store := (removeValidatorDurable env pubkey s.store).final, stateLock := none }, none)
  | releasing token pubkey => release env token pubkey s
  | released token pubkey => ({ (s.completeEnable pubkey).finish token with stateLock := none }, none)
  | refused token pubkey => finishRefused token pubkey s

inductive Action where
  | call (call : Call)
  | goOn
  | observeCancel (token : Nat)
  | setDisabled (pubkey : Pubkey)
  | disableSlashed (pubkey : Pubkey)
  | setClock (now : Nat)

def Action.run (s : State) : Action → Option (State × Option Effect)
  | call c =>
      match s.stateLock with
      | none => c.run env window s
      | some _ => none
  | goOn => s.stateLock.map (Section.run env s)
  | observeCancel token =>
      match s.tasks token with
      | some task =>
          if task.cancelled && !task.finished then some (s.finish token, none) else none
      | none => none
  | setDisabled pubkey => some (storeDisable pubkey (setEnabledDurable env pubkey false) s)
  | disableSlashed pubkey => some (storeDisable pubkey (ValidatorStore.disableSlashed env pubkey) s)
  | setClock now => some ({ s with store := { s.store with clock := now } }, none)

/-- A run of the system from a store, with what took effect, the last first. -/
inductive Run (store : World) : List Effect → State → Prop where
  | start : Run store [] (State.new store)
  | step {trace : List Effect} {s s' : State} {action : Action} {effect : Option Effect} :
      Run store trace s → action.run env window s = some (s', effect) →
      Run store (effect.toList ++ trace) s'

end

end Rvc.KeymanagerApi
