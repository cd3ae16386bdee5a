import Rvc.KeymanagerAdapters.Admission
import Rvc.Signer.Gate

/-!
# How a key goes out

`delete_keystores` for one key, next to the imports and admissions of that key and the tasks of the gate. A
DELETE counts itself and, when the key is local, its snapshot of it, then disables the key, closes the gate
(`quiesce`), waits for the lock of the key (`drain_pubkey`), exports, and only then deletes. A key that is not
in the snapshot is not exported, and is not to be removed.

A request names keys in any order and may name one twice: after the export it serves the key any number of
times. It gives up where it is awaited, during the drain, as well as on errors.
-/

namespace Rvc.KeymanagerAdapters

open Rvc.Slashing Rvc.Signer Function

/-! ### The request -/

inductive DeleteStatus where
  | deleted
  | notFound
  | error (message : String)
  deriving DecidableEq

/-- What others can tell of the key. A DELETE comes with the tables its export read, if it read any. -/
inductive Event (M : Type) where
  | released (m : M)
  | imported
  | removed (exported : Option Tables)
  | reported (status : DeleteStatus) (exported : Option Tables)

inductive DeletePhase where
  | waiting
  | counted (member : Bool)
  | disabled
  | quiescing
  | drained
  | serving (exported : Option Tables)
  | checked (exported : Option Tables)
  /-- `delete_keystore`, with the key denylisted: the signer is next. -/
  | purging (exported : Option Tables)
  | unmapping (exported : Option Tables)
  | configuring (exported : Option Tables) (present : Bool)
  | leaving (member : Bool)
  | ended

inductive DeleteAction where
  | count
  | disable (fails : Bool)
  | quiesce
  /-- The drain times out, or the request is dropped while it waits. -/
  | giveUp
  | exportInterchange (fails : Bool)
  | skipExport
  | checkHasKey
  | deleteKeystore (fails : Bool)
  | removeLocalKey
  | removeFromMap
  | removeRow (fails : Bool)
  | leave
  | endExport
  deriving DecidableEq

variable {M : Type}

/-- `delete_keystore` up to the removal from the signer: a local key that is in no snapshot is refused. -/
def deleteKeystore (fails : Bool) (i : Nat) (keys : Keys) (exported : Option Tables) :
    DeletePhase × Keys × Option (Event M) :=
  if 0 < keys.requests && keys.isLocal && !decide (0 < keys.perKey) then
    (.serving exported, keys, some (.reported (.error "keystore delete failed") exported))
  else if fails then
    (.serving exported, keys, some (.reported (.error "keystore delete failed") exported))
  else if !keys.isLocal then
    (.configuring exported false, { keys with denylisted := true }, none)
  else
    (.purging exported, { keys with denylisted := true, tracked := some (.deleting i) }, none)

/-- The next step of a DELETE, when it can be taken; `tables` are those an export would read. What needs
`tracked_keys` waits until it is free, and `delete_keystore` keeps it from the check to the map. -/
def DeleteAction.run (tables : Tables) (i : Nat) (keys : Keys) (phase : DeletePhase) (action : DeleteAction) :
    Option (DeletePhase × Keys × Option (Event M)) :=
  match phase, action with
  | .waiting, .count =>
      if keys.tracked.isSome then none
      else some (.counted keys.isLocal, { keys with
        requests := keys.requests + 1
        perKey := keys.perKey + keys.isLocal.toNat }, none)
  | .counted true, .disable fails => some (if fails then .leaving true else .disabled, keys, none)
  | .counted false, .skipExport => some (.serving none, keys, none)
  | .disabled, .quiesce =>
      if keys.tracked.isSome then none
      else some (.quiescing, { keys with quiesced := keys.quiesced || keys.isLocal }, none)
  | .quiescing, .giveUp => some (.leaving true, keys, none)
  | .drained, .exportInterchange fails =>
      some (if fails then .leaving true else .serving (some tables), keys, none)
  | .serving exported, .checkHasKey =>
      if exported.isNone && keys.isLocal then
        some (.serving exported, keys, some (.reported
          (.error "key appeared after the slashing-protection export; not deleted") exported))
      else
        some (.checked exported, keys, none)
  | .checked exported, .deleteKeystore fails =>
      if keys.tracked.isSome then none else some (KeymanagerAdapters.deleteKeystore fails i keys exported)
  | .purging exported, .removeLocalKey =>
      if keys.tracked = some (.deleting i) then
        some (.unmapping exported, { keys with isLocal := false },
          if keys.isLocal then some (.removed exported) else none)
      else
        none
  | .unmapping exported, .removeFromMap =>
      if keys.tracked = some (.deleting i) then
        some (.configuring exported true, { keys with inMap := false, tracked := none }, none)
      else
        none
  | .configuring exported present, .removeRow fails =>
      if fails then
        some (.serving exported, keys, some (.reported (.error "validator config update failed") exported))
      else
        some (.serving exported, { keys with hasRow := false },
          some (.reported (if keys.hasRow || present then .deleted else .notFound) exported))
  | .serving exported, .leave => some (.leaving exported.isSome, keys, none)
  | .leaving member, .endExport =>
      if keys.tracked.isSome then none
      else some (.ended, { keys with
        requests := keys.requests - 1
        perKey := keys.perKey - member.toNat }, none)
  | _, _ => none

/-! ### The system -/

structure State where
  gate : Gate
  keys : Keys
  deletes : Nat → DeletePhase
  imports : Nat → ImportPhase
  admissions : Nat → AdmitPhase

def State.new (tables : Tables) (keys : Keys) : State :=
  ⟨.new tables, keys, fun _ => .waiting, fun _ => .waiting, fun _ => .start⟩

section

variable (s : State) (i : Nat)

/-- An import starts when `tracked_keys` is free, and goes on as its owner. -/
def State.mayImport : Bool :=
  match s.imports i with
  | .waiting => s.keys.tracked.isNone
  | .returned _ => false
  | _ => s.keys.tracked = some (.importing i)

inductive Action where
  | importKeystore (i : Nat) (windowed : Bool) (faults : ImportFaults)
  | admitSecret (i : Nat) (fails : Bool)
  | delete (i : Nat) (action : DeleteAction)

/-- A step of an import; its last one is seen when it succeeds. -/
def State.importKeystore (windowed : Bool) (faults : ImportFaults) : State × Option (Event M) :=
  let (phase, keys) := (s.imports i).next windowed faults i s.keys
  ({ s with keys := keys, imports := update s.imports i phase },
    match phase with
    | .returned (.ok ()) => some .imported
    | _ => none)

def State.admitSecret (fails : Bool) : State :=
  let (phase, keys) := (s.admissions i).next .rawSecret fails s.keys
  { s with keys := keys, admissions := update s.admissions i phase }

def State.afterDelete (phase : DeletePhase) (keys : Keys) : State :=
  { s with keys := keys, deletes := update s.deletes i phase }

def Action.run : Action → Option (State × Option (Event M))
  | importKeystore i windowed faults => if s.mayImport i then some (s.importKeystore i windowed faults) else none
  | admitSecret i fails => some (s.admitSecret i fails, none)
  | delete i action =>
      match action.run s.gate.tables i s.keys (s.deletes i) with
      | some (phase, keys, event) => some (s.afterDelete i phase keys, event)
      | none => none

end

/-- Actions one after the other, in states with `ok`; `none` when one of them cannot be taken. -/
def State.act (ok : State → Action → Prop) [∀ s a, Decidable (ok s a)] (s : State) :
    List Action → Option (State × List (Event M))
  | [] => some (s, [])
  | action :: rest =>
      if ok s action then
        match action.run s with
        | some (s', event) => (s'.act ok rest).map fun (last, trace) => (last, trace ++ event.toList)
        | none => none
      else
        none

/-- The message of a task that hands out a signature of the key. -/
def releasedBy (requests : Nat → Request M) (pubkey : PubkeyBytes) (g : Gate) : GateLabel → Option (Event M)
  | .answered i =>
      match g.phase i with
      | .returned (.ok _) =>
          if (requests i).pubkey = pubkey then some (.released (requests i).message) else none
      | _ => none
  | _ => none

section

variable [SlashableMessage M] (db : SlashingDb) (capacity : Nat) (pubkey : PubkeyBytes) (requests : Nat → Request M)

/-- One step of the system, by the action it is if it is one of the handlers', with what can be told of it. -/
inductive Step : Option Action → Option (Event M) → State → State → Prop
  | act {s s' : State} {action : Action} {event : Option (Event M)} (h : action.run s = some (s', event)) :
      Step (some action) event s s'
  | sign {s : State} {g : Gate} {label : GateLabel} (h : GateStep db capacity requests label s.gate g)
      (hgate : ∀ i, label = .enabled i → (requests i).pubkey = pubkey → s.keys.quiesced = false) :
      Step none (releasedBy requests pubkey s.gate label) s { s with gate := g }
  | drain {s : State} {locks locks' : LockState} (i : Nat) (hphase : s.deletes i = .quiescing)
      (hacquire : LockStep capacity (.acquired pubkey) s.gate.locks locks)
      (hdrop : LockStep capacity (.released pubkey) locks locks') :
      Step none none s { s.afterDelete i .drained s.keys with gate := { s.gate with locks := locks' } }

/-- A run whose actions are all taken in states with `ok`, with what could be told of it, the last first. -/
inductive Run (ok : State → Action → Prop) (start : State) : List (Event M) → State → Prop
  | start : Run ok start [] start
  | step {trace : List (Event M)} {s s' : State} {action : Option Action} {event : Option (Event M)} :
      Run ok start trace s → Step db capacity pubkey requests action event s s' →
      (∀ a, action = some a → ok s a) → Run ok start (event.toList ++ trace) s'

end

section

variable [SlashableMessage M] {db : SlashingDb} {capacity : Nat} {pubkey : PubkeyBytes}
  {requests : Nat → Request M} {ok : State → Action → Prop} {start s : State} {trace : List (Event M)}

namespace Run

theorem acts [∀ s a, Decidable (ok s a)] (hrun : Run db capacity pubkey requests ok start trace s)
    (actions : List Action) (events : List (Event M)) {s' : State} (hact : s.act ok actions = some (s', events)) :
    Run db capacity pubkey requests ok start (events ++ trace) s' := by
  induction actions generalizing s trace events with
  | nil =>
    cases hact
    exact hrun
  | cons action rest ih =>
    unfold State.act at hact
    split at hact
    case isFalse => cases hact
    next hok =>
    split at hact
    case h_2 => cases hact
    next next event haction =>
    obtain ⟨⟨last, tail⟩, hrest, heq⟩ := Option.map_eq_some_iff.mp hact
    cases heq
    rw [List.append_assoc]
    refine ih (hrun.step (.act haction) fun a ha => ?_) tail hrest
    cases ha
    exact hok

section

variable (hrun : Run db capacity pubkey requests ok start trace s)

include hrun

theorem quiet {g : Gate} {label : GateLabel}
    (hstep : GateStep db capacity requests label s.gate g) (hlabel : label = .quiet ∨ label = .database) :
    Run db capacity pubkey requests ok start trace { s with gate := g } := by
  rcases hlabel with rfl | rfl
  all_goals exact hrun.step (.sign hstep nofun) nofun

theorem answers {i : Nat} {signature : List UInt8}
    {locks : LockState} (hphase : s.gate.phase i = .returned (.ok signature)) (hpubkey : (requests i).pubkey = pubkey)
    (hlock : LockStep capacity (.released (requests i).pubkey) s.gate.locks locks) :
    Run db capacity pubkey requests ok start (.released (requests i).message :: trace)
      { s with gate := { s.gate.setPhase i (.finished (.ok signature)) with locks := locks } } := by
  have hstep := hrun.step (.sign (.release i hphase hlock) nofun) nofun
  simp only [releasedBy, hphase, if_pos hpubkey] at hstep
  exact hstep

theorem signs {i mutex : Nat} {reservation : CommittedReservation} (hphase : s.gate.phase i = .waiting)
    (hpubkey : (requests i).pubkey = pubkey) (hopen : s.keys.quiesced = false)
    (hlocks : (s.gate.locks.get capacity pubkey).handles = [⟨pubkey, mutex, .arc⟩])
    (hreserve : (reserve db s.gate.tables (requests i).spec).1 = .ok reservation) :
    ∃ g : Gate, g.locks.handles = [⟨pubkey, mutex, .arc⟩] ∧ g.tables = (reserve db s.gate.tables (requests i).spec).2 ∧
      Run db capacity pubkey requests ok start (.released (requests i).message :: trace)
        { s with gate := g } := by
  subst hpubkey
  have hwait := (hrun.quiet (.lockTraffic (.get (requests i).pubkey)) (.inl rfl)).quiet
    (.lockTraffic (.wait [] [] hlocks)) (.inl rfl)
  have hlock := hwait.quiet (.lock i hphase (.acquire [] [] rfl (by simp [LockState.guards]))) (.inl rfl)
  have hresolve := hlock.step (.sign (.resolve i (update_self ..) .discardStagedRow)
    fun _ _ _ => hopen) (by simp)
  have hstage := hresolve.quiet (.reserve i (update_self ..)) (.inr rfl)
  have hcontact := hstage.quiet (.contact i ((update_self ..).trans (congrArg _ hreserve)) .discardStagedRow) (.inl rfl)
  have hrespond := hcontact.quiet (.respond i (update_self ..) (.signed [])) (.inl rfl)
  exact ⟨_, rfl, rfl, hrespond.answers (update_self ..) rfl (.release [] [] rfl)⟩

end

end Run

end

end Rvc.KeymanagerAdapters
