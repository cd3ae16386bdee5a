import Mathlib.Tactic.Common

/-!
# How a key comes in

`KeyAdmissionService::admit` and `import_keystore_blocking`, for one key. The provider of secrets admits a key
with no lock held. A keystore is imported under `tracked_keys`: the import checks that the key is absent and
that no DELETE has it in its snapshot, admits it, and at the end reopens the gate that an earlier DELETE
closed (`readmit`). Both are split at every access to a shared store, where others may step in.

As the binary wires them, the adapter has a denylist and a registry of quiesced keys.
-/

namespace Rvc.KeymanagerAdapters

/-! ### The shared stores -/

inductive Owner where
  | importing (i : Nat)
  | deleting (i : Nat)
  deriving DecidableEq

structure Keys where
  isLocal : Bool
  inMap : Bool
  hasRow : Bool
  denylisted : Bool
  quiesced : Bool
  tracked : Option Owner
  requests : Nat
  perKey : Nat
  deriving DecidableEq

def Keys.boot (isLocal inMap hasRow denylisted : Bool) : Keys :=
  ⟨isLocal, inMap, hasRow, denylisted, false, none, 0, 0⟩

/-! ### Admission -/

inductive AdmissionSource where
  | keystore (windowed : Bool)
  | rawSecret
  deriving DecidableEq

namespace AdmissionSource

def enforceDenylist : AdmissionSource → Bool
  | keystore _ => false
  | rawSecret => true

def holds : AdmissionSource → Bool
  | keystore windowed => windowed
  | rawSecret => false

end AdmissionSource

inductive AdmissionOutcome where
  | admitted (insertedRow : Bool)
  | skippedDenylisted
  | alreadyPresent
  | failed
  deriving DecidableEq

inductive AdmitPhase where
  | start
  | screened
  | absent
  | cleared
  | held (insertedRow : Bool)
  | added (insertedRow : Bool)
  | mapped (insertedRow : Bool)
  /-- The row was not written: signer and map are to drop the key again, in this order. -/
  | unstored
  | undoing
  | stored (insertedRow : Bool)
  /-- Denylisted meanwhile, and the signer has dropped the key again. -/
  | revoking (insertedRow : Bool)
  | unpublished (insertedRow : Bool)
  | done (outcome : AdmissionOutcome)
  deriving DecidableEq

/-- The next access of an `admit`; `fails` says that the write of a row fails. -/
def AdmitPhase.next (source : AdmissionSource) (fails : Bool) (keys : Keys) : AdmitPhase → AdmitPhase × Keys
  | start =>
      if source.enforceDenylist && keys.denylisted then (.done .skippedDenylisted, keys)
      else (.screened, keys)
  | screened => if keys.inMap then (.done .alreadyPresent, keys) else (.absent, keys)
  | absent =>
      if source.enforceDenylist && keys.denylisted then (.done .skippedDenylisted, keys)
      else (.cleared, keys)
  | cleared =>
      if source.holds then
        if fails then (.done .failed, keys)
        else (.held (!keys.hasRow), { keys with hasRow := true })
      else
        (.held false, keys)
  | held insertedRow => (.added insertedRow, { keys with isLocal := true })
  | added insertedRow => (.mapped insertedRow, { keys with inMap := true })
  | mapped insertedRow =>
      if source.holds then (.stored insertedRow, keys)
      -- `add_validator_durable` writes nothing for a row that is there, and cannot fail
      else if keys.hasRow then (.stored false, keys)
      else if fails then (.unstored, keys)
      else (.stored true, { keys with hasRow := true })
  | unstored => (.undoing, { keys with isLocal := false })
  | undoing => (.done .failed, { keys with inMap := false })
  | stored insertedRow =>
      if source.enforceDenylist && keys.denylisted then (.revoking insertedRow, { keys with isLocal := false })
      else (.done (.admitted insertedRow), keys)
  | revoking insertedRow => (.unpublished insertedRow, { keys with inMap := false })
  | unpublished insertedRow =>
      (.done .skippedDenylisted, if insertedRow && !fails then { keys with hasRow := false } else keys)
  | done outcome => (.done outcome, keys)

/-! ### Import of a keystore -/

inductive ImportKeystoreError where
  | duplicate
  | deleteInProgress
  | io
  deriving DecidableEq

/-- Where an import is, from the moment its keystore is decrypted. -/
inductive ImportPhase where
  | waiting
  /-- Absent, and in no snapshot: the files are written under their staged names. -/
  | staging
  | staged
  | held (preinserted : Bool)
  | publishing (preinserted : Bool)
  | admitting (preinserted : Bool) (phase : AdmitPhase)
  /-- `rollback_failed_keystore`: the signer, then the map, then the files and the row. -/
  | rollingBack (insertedRow : Bool)
  | unmapping (insertedRow : Bool)
  | discarding (insertedRow : Bool)
  /-- Another admission was first; this import has renamed its files already. -/
  | lateDuplicate
  | clearing
  /-- The denylist is cleared: whether a DELETE is in flight is looked up. -/
  | settling
  | readmitting (deleteStillInFlight : Bool)
  | returned (result : Except ImportKeystoreError Unit)

/-- What goes wrong at a step of an import: its write, and while it discards files the unlinking, the
denylisting for that, and the sync of the directory. -/
structure ImportFaults where
  fails : Bool
  unlinkFails : Bool
  denylistFails : Bool
  syncFails : Bool
  deriving DecidableEq

namespace Keys

def release (keys : Keys) : Keys := { keys with tracked := none }

section

variable (faults : ImportFaults) (keys : Keys)

/-- `discard_staged_keystore`: a key whose files stay is denylisted. -/
def discardStaged : Keys :=
  { keys with denylisted := keys.denylisted || (faults.unlinkFails && !faults.denylistFails) }

def keepTombstone : Keys :=
  { keys with hasRow := keys.hasRow || !faults.fails }

def finishRollback (insertedRow : Bool) (keys : Keys) : Keys :=
  if !faults.unlinkFails && !faults.syncFails then
    if insertedRow && !faults.fails then { keys with hasRow := false } else keys
  else
    keys.keepTombstone faults

end

end Keys

def ImportPhase.next (windowed : Bool) (faults : ImportFaults) (i : Nat) (keys : Keys) :
    ImportPhase → ImportPhase × Keys
  | waiting =>
      if keys.isLocal then (.returned (.error .duplicate), keys)
      else if 0 < keys.perKey then (.returned (.error .deleteInProgress), keys)
      else (.staging, { keys with tracked := some (.importing i) })
  | staging =>
      if faults.fails then (.returned (.error .io), (keys.discardStaged faults).release)
      else (.staged, keys)
  | staged =>
      if keys.inMap then (.returned (.error .duplicate), keys.release)
      else if windowed then
        if faults.fails then (.returned (.error .io), (keys.discardStaged faults).release)
        else (.held (!keys.hasRow), { keys with hasRow := true })
      else
        (.publishing false, keys)
  | held preinserted =>
      if keys.inMap then (.returned (.error .duplicate), keys.release)
      else (.publishing preinserted, keys)
  | publishing preinserted =>
      if faults.fails then
        if preinserted then (.rollingBack true, keys)
        else (.returned (.error .io), (keys.discardStaged faults).release)
      else
        (.admitting preinserted .start, keys)
  | admitting preinserted phase =>
      match phase with
      | .done (.admitted _) => (.clearing, keys)
      | .done .failed => (.rollingBack preinserted, keys)
      | .done .alreadyPresent => (.lateDuplicate, keys)
      | .done .skippedDenylisted => (.rollingBack preinserted, keys)
      | phase =>
          let (phase, keys) := phase.next (.keystore windowed) faults.fails keys
          (.admitting preinserted phase, keys)
  | rollingBack insertedRow => (.unmapping insertedRow, { keys with isLocal := false })
  | unmapping insertedRow => (.discarding insertedRow, { keys with inMap := false })
  | discarding insertedRow =>
      (.returned (.error .io), ((keys.discardStaged faults).finishRollback faults insertedRow).release)
  | lateDuplicate =>
      (.returned (.error .duplicate),
        (if faults.unlinkFails || faults.syncFails then keys.keepTombstone faults else keys).release)
  | clearing =>
      -- the key stays loaded, and quiesced
      if faults.fails then (.returned (.error .io), keys.release)
      else (.settling, { keys with denylisted := false })
  | settling => (.readmitting (0 < keys.perKey), keys)
  | readmitting deleteStillInFlight =>
      (.returned (.ok ()), (if deleteStillInFlight then keys else { keys with quiesced := false }).release)
  | returned result => (.returned result, keys)

/-! ### What admissions leave alone -/

structure Keys.SameGate (keys keys' : Keys) : Prop where
  quiesced : keys'.quiesced = keys.quiesced
  requests : keys'.requests = keys.requests
  perKey : keys'.perKey = keys.perKey

section

variable (source : AdmissionSource) (fails windowed : Bool) (faults : ImportFaults) (i : Nat) (keys : Keys)

theorem AdmitPhase.next_sameGate (phase : AdmitPhase) : keys.SameGate (phase.next source fails keys).2 := by
  cases phase <;> dsimp only [AdmitPhase.next] <;> (repeat' split) <;> exact ⟨rfl, rfl, rfl⟩

theorem AdmitPhase.next_tracked (phase : AdmitPhase) : (phase.next source fails keys).2.tracked = keys.tracked := by
  cases phase <;> dsimp only [AdmitPhase.next] <;> (repeat' split) <;> rfl

theorem Keys.finishRollback_sameGate (insertedRow : Bool) : keys.SameGate (keys.finishRollback faults insertedRow) := by
  unfold Keys.finishRollback Keys.keepTombstone
  repeat' split
  all_goals exact ⟨rfl, rfl, rfl⟩

variable {phase : ImportPhase}

open ImportPhase

theorem ImportPhase.next_sameGate (hphase : ∀ b, phase ≠ .readmitting b) :
    keys.SameGate (phase.next windowed faults i keys).2 := by
  cases phase with
  | readmitting b => exact absurd rfl (hphase b)
  | discarding insertedRow =>
    obtain ⟨hquiesced, hrequests, hperKey⟩ :=
      (keys.discardStaged faults).finishRollback_sameGate faults insertedRow
    exact ⟨hquiesced, hrequests, hperKey⟩
  | admitting preinserted phase =>
    dsimp only [next]
    split
    any_goals exact ⟨rfl, rfl, rfl⟩
    exact AdmitPhase.next_sameGate _ _ _ _
  | _ =>
    dsimp only [next]
    repeat' split
    all_goals exact ⟨rfl, rfl, rfl⟩

theorem ImportPhase.next_readmitting {b : Bool} (h : (phase.next windowed faults i keys).1 = .readmitting b) :
    phase = .settling ∧ b = decide (0 < keys.perKey) ∧ (phase.next windowed faults i keys).2 = keys := by
  cases phase with
  | settling => exact ⟨rfl, (readmitting.inj h).symm, rfl⟩
  | admitting preinserted phase =>
    dsimp only [next] at h
    split at h <;> cases h
  | _ =>
    dsimp only [next] at h
    repeat' split at h
    all_goals cases h

theorem ImportPhase.next_returned_ok (h : (phase.next windowed faults i keys).1 = .returned (.ok ())) :
    (∃ b, phase = .readmitting b) ∨ phase = .returned (.ok ()) := by
  cases phase with
  | readmitting b => exact .inl ⟨b, rfl⟩
  | returned result => exact .inr h
  | admitting preinserted phase =>
    dsimp only [next] at h
    split at h <;> cases h
  | _ =>
    dsimp only [next] at h
    repeat' split at h
    all_goals cases h

end

end Rvc.KeymanagerAdapters
