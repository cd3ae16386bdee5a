import Rvc.Doppelganger.ForwardWindow
import Rvc.KeymanagerAdapters.Concurrent
import Rvc.ValidatorStore.Store

/-!
# An import that finds the key admitted already

One `import_keystore_blocking` among any number of admissions by the provider of secrets, for one key, with what
it writes before its last look at the map: the row with its hold, and the files. All writes go through.

An import that returns `Duplicate` is compared with the same run without its steps. It leaves signer, map, window,
quiesce registry and denylist as they would be. The hold it has written before the second look at the map stays in the
row, and files it has renamed to their final names are removed from there.
-/

namespace Rvc.KeymanagerAdapters

open Rvc.Doppelganger (ForwardWindowMachine PublicKey)
open Function
open Rvc.ValidatorStore (ValidatorConfig)

/-! ### The stores -/

/-- The files of the key in the keystore directory; boot reads `0x<pk>.json` and the metadata beside it only. -/
structure KeyFiles where
  staged : Option String
  stagedMeta : Option String
  keystore : Option String
  importMeta : Option String
  deriving DecidableEq

/-- What an import is called with, and what it reads from the clock. -/
structure ImportJob where
  pubkey : PublicKey
  keystoreJson : String
  metaJson : String
  holdUntil : Option Nat

namespace KeyFiles

section

variable (files : KeyFiles)

def stage (job : ImportJob) : KeyFiles :=
  { files with staged := some job.keystoreJson, stagedMeta := some job.metaJson }

def discardUnrenamedPartials : KeyFiles := { files with staged := none, stagedMeta := none }

def renameKeystore : KeyFiles := { files with staged := none, keystore := files.staged }

def renameMeta : KeyFiles := { files with stagedMeta := none, importMeta := files.stagedMeta }

def discardRenamedKeystore : KeyFiles := { files with keystore := none, importMeta := none }

def discardStagedKeystore (_ : KeyFiles) : KeyFiles := ⟨none, none, none, none⟩

def SameBoot (files' : KeyFiles) : Prop :=
  files.keystore = files'.keystore ∧ files.importMeta = files'.importMeta

end

end KeyFiles

structure Stores where
  isLocal : Bool
  inMap : Bool
  row : Option ValidatorConfig
  denylisted : Bool
  quiesced : Bool
  machine : Option ForwardWindowMachine
  keyGen : Nat
  perKey : Nat
  files : KeyFiles

/-- The row after `persist_keystore_hold`: a new one is disabled and held, one that is disabled without a hold stays. -/
def heldRow (untilUnix : Nat) : Option ValidatorConfig → ValidatorConfig
  | none => { ValidatorConfig.new with enabled := false, doppelgangerHoldUntil := some untilUnix }
  | some existing =>
      match existing.enabled, existing.doppelgangerHoldUntil with
      | false, none => existing
      | false, some old => { existing with doppelgangerHoldUntil := some (max old untilUnix) }
      | true, _ => { existing with enabled := false, doppelgangerHoldUntil := some untilUnix }

namespace Stores

def announce (pubkey : PublicKey) (epoch : Nat) (s : Stores) : Stores :=
  { s with machine := s.machine.map (·.registerForImport pubkey epoch), keyGen := s.keyGen + 1 }

def withdraw (pubkey : PublicKey) (s : Stores) : Stores :=
  { s with machine := s.machine.map (·.cancel pubkey), keyGen := s.keyGen + 1 }

structure Same (s s' : Stores) : Prop where
  isLocal : s.isLocal = s'.isLocal
  inMap : s.inMap = s'.inMap
  denylisted : s.denylisted = s'.denylisted
  quiesced : s.quiesced = s'.quiesced
  machine : s.machine = s'.machine
  keyGen : s.keyGen = s'.keyGen
  perKey : s.perKey = s'.perKey

def toKeys (s : Stores) : Keys :=
  ⟨s.isLocal, s.inMap, s.row.isSome, s.denylisted, s.quiesced, none, 0, s.perKey⟩

end Stores

/-! ### Admissions and the import -/

inductive SecretSource where
  | keystore (holdUntil : Option Nat)
  | rawSecret

namespace SecretSource

def holdUntil : SecretSource → Option Nat
  | keystore holdUntil => holdUntil
  | rawSecret => none

def toAdmissionSource : SecretSource → AdmissionSource
  | keystore holdUntil => .keystore holdUntil.isSome
  | rawSecret => .rawSecret

def enforceDenylist (source : SecretSource) : Bool := source.toAdmissionSource.enforceDenylist

end SecretSource

/-- The next access of an `admit`, as `AdmitPhase.next` has it where every write goes through. -/
def AdmitPhase.access (source : SecretSource) (pubkey : PublicKey) (epoch : Nat) (s : Stores) :
    AdmitPhase → AdmitPhase × Stores
  | start => if source.enforceDenylist && s.denylisted then (.done .skippedDenylisted, s) else (.screened, s)
  | screened => if s.inMap then (.done .alreadyPresent, s) else (.absent, s)
  | absent => if source.enforceDenylist && s.denylisted then (.done .skippedDenylisted, s) else (.cleared, s)
  | cleared =>
      match source.holdUntil with
      | some untilUnix => (.held s.row.isNone, { s with row := some (heldRow untilUnix s.row) })
      | none => (.held false, s)
  | held insertedRow => (.added insertedRow, { s with isLocal := true })
  | added insertedRow => (.mapped insertedRow, { s with inMap := true })
  | mapped insertedRow =>
      match source.holdUntil with
      | some _ => (.stored insertedRow, s)
      | none => (.stored s.row.isNone, { s with row := some (s.row.getD .new) })
  | unstored => (.undoing, { s with isLocal := false })
  | undoing => (.done .failed, { s with inMap := false })
  | stored insertedRow =>
      if source.enforceDenylist && s.denylisted then (.revoking insertedRow, { s with isLocal := false })
      else (.done (.admitted insertedRow), s.announce pubkey epoch)
  | revoking insertedRow => (.unpublished insertedRow, { s with inMap := false })
  | unpublished insertedRow =>
      (.done .skippedDenylisted, { s.withdraw pubkey with row := if insertedRow then none else s.row })
  | done outcome => (.done outcome, s)

inductive Found where
  | inSigner
  | staged
  | held
  /-- In the map, by `admit`, with the files under their final names. -/
  | admitting
  deriving DecidableEq

/-- Where an import is. `ImportPhase` looks at the map and writes the hold in one step, which are two here. -/
inductive ImportAt where
  | waiting
  | staging
  | staged
  | absent (untilUnix : Nat)
  | held (preinserted : Bool)
  | publishing (preinserted : Bool)
  | publishingMeta (preinserted : Bool)
  | admitting (preinserted : Bool) (phase : AdmitPhase)
  | lateDuplicate
  | rollingBack (insertedRow : Bool)
  | unmapping (insertedRow : Bool)
  | discarding (insertedRow : Bool)
  | clearing
  | settling
  | readmitting (deleteStillInFlight : Bool)
  | imported
  | failed
  | deleteInProgress
  | duplicate (found : Found)
  deriving DecidableEq

def ImportAt.access (job : ImportJob) (epoch : Nat) (s : Stores) : ImportAt → ImportAt × Stores
  | waiting =>
      if s.isLocal then (.duplicate .inSigner, s)
      else if 0 < s.perKey then (.deleteInProgress, s)
      else (.staging, s)
  | staging => (.staged, { s with files := s.files.stage job })
  | staged =>
      if s.inMap then (.duplicate .staged, { s with files := s.files.discardUnrenamedPartials })
      else
        match job.holdUntil with
        | some untilUnix => (.absent untilUnix, s)
        | none => (.publishing false, s)
  | absent untilUnix => (.held s.row.isNone, { s with row := some (heldRow untilUnix s.row) })
  | held preinserted =>
      if s.inMap then (.duplicate .held, { s with files := s.files.discardUnrenamedPartials })
      else (.publishing preinserted, s)
  | publishing preinserted => (.publishingMeta preinserted, { s with files := s.files.renameKeystore })
  | publishingMeta preinserted => (.admitting preinserted .start, { s with files := s.files.renameMeta })
  | admitting preinserted phase =>
      match phase with
      | .done (.admitted _) => (.clearing, s)
      | .done .alreadyPresent => (.lateDuplicate, s)
      | .done .failed => (.rollingBack preinserted, s)
      | .done .skippedDenylisted => (.rollingBack preinserted, s)
      | phase =>
          let next := phase.access (.keystore job.holdUntil) job.pubkey epoch s
          (.admitting preinserted next.1, next.2)
  | lateDuplicate => (.duplicate .admitting, { s with files := s.files.discardRenamedKeystore })
  | rollingBack insertedRow => (.unmapping insertedRow, { s with isLocal := false })
  | unmapping insertedRow => (.discarding insertedRow, { s.withdraw job.pubkey with inMap := false })
  | discarding insertedRow =>
      (.failed, { s with
        files := s.files.discardStagedKeystore
        row := if insertedRow then none else s.row })
  | clearing => (.settling, { s with denylisted := false })
  | settling => (.readmitting (0 < s.perKey), s)
  | readmitting deleteStillInFlight =>
      (.imported, if deleteStillInFlight then s else { s with quiesced := false })
  | imported => (.imported, s)
  | failed => (.failed, s)
  | deleteInProgress => (.deleteInProgress, s)
  | duplicate found => (.duplicate found, s)

open SecretSource

open Stores

theorem AdmitPhase.access_toKeys (source : SecretSource) (pubkey : PublicKey) (epoch : Nat) (s : Stores)
    (phase : AdmitPhase) : ((phase.access source pubkey epoch s).1, (phase.access source pubkey epoch s).2.toKeys) =
      phase.next source.toAdmissionSource false s.toKeys := by
  cases source with
  | rawSecret =>
    cases phase <;> dsimp only [access, next, holdUntil] <;> (repeat' split) <;>
      simp_all [toKeys, enforceDenylist, toAdmissionSource, AdmissionSource.holds, announce, withdraw]
  | keystore holdUntil =>
    cases holdUntil <;> cases phase <;> dsimp only [access, next, holdUntil] <;> (repeat' split) <;>
      simp_all [toKeys, enforceDenylist, toAdmissionSource, AdmissionSource.holds, announce, withdraw]

/-! ### Runs, with and without the import -/

section

variable {ι : Type}

structure Racing (ι : Type) where
  stores : Stores
  importing : ImportAt
  admits : ι → AdmitPhase

inductive Turn (ι : Type) where
  | importing (epoch : Nat)
  | admitting (i : ι) (epoch : Nat)

def Turn.isAdmission : Turn ι → Bool
  | importing _ => false
  | admitting _ _ => true

namespace Racing

def begin (stores : Stores) : Racing ι := ⟨stores, .waiting, fun _ => .start⟩

variable [DecidableEq ι] (job : ImportJob)

def step (r : Racing ι) : Turn ι → Racing ι
  | .importing epoch =>
      { r with
        stores := (r.importing.access job epoch r.stores).2
        importing := (r.importing.access job epoch r.stores).1 }
  | .admitting i epoch =>
      { r with
        stores := ((r.admits i).access .rawSecret job.pubkey epoch r.stores).2
        admits := update r.admits i ((r.admits i).access .rawSecret job.pubkey epoch r.stores).1 }

def run (r : Racing ι) (turns : List (Turn ι)) : Racing ι := turns.foldl (step job) r

def runWithout (r : Racing ι) (turns : List (Turn ι)) : Racing ι := r.run job (turns.filter Turn.isAdmission)

end Racing

end

/-! ### What an admission does on both sides -/

/-- The same place of an admission, but for whether it inserted the row. -/
inductive AdmitPhase.Alike : AdmitPhase → AdmitPhase → Prop
  | start : Alike .start .start
  | screened : Alike .screened .screened
  | absent : Alike .absent .absent
  | cleared : Alike .cleared .cleared
  | held (b b' : Bool) : Alike (.held b) (.held b')
  | added (b b' : Bool) : Alike (.added b) (.added b')
  | mapped (b b' : Bool) : Alike (.mapped b) (.mapped b')
  | unstored : Alike .unstored .unstored
  | undoing : Alike .undoing .undoing
  | stored (b b' : Bool) : Alike (.stored b) (.stored b')
  | admitted (b b' : Bool) : Alike (.done (.admitted b)) (.done (.admitted b'))
  | done (outcome : AdmissionOutcome) : Alike (.done outcome) (.done outcome)

/-- The rows with and without a hold that was written over the row `found`. An admission adds a row where there is
none, and then none is there without the hold only. -/
def AfterHold (holdUntil : Option Nat) (row row' : Option ValidatorConfig) : Prop :=
  match holdUntil with
  | none => row = row'
  | some untilUnix =>
      ∃ found, row = some (heldRow untilUnix found) ∧ (row' = found ∨ found = none ∧ row' = some .new)

theorem AfterHold.admission {holdUntil : Option Nat} {row row' : Option ValidatorConfig}
    (h : AfterHold holdUntil row row') : AfterHold holdUntil (some (row.getD .new)) (some (row'.getD .new)) := by
  cases holdUntil with
  | none => exact congrArg (fun row => some (Option.getD row .new)) h
  | some untilUnix =>
    obtain ⟨found, hrow, hfound⟩ := h
    refine ⟨found, by rw [hrow]; rfl, ?_⟩
    rcases hfound with hfound | ⟨hnone, hnew⟩
    · rw [hfound]
      cases found with
      | none => exact .inr ⟨rfl, rfl⟩
      | some existing => exact .inl rfl
    · rw [hnew]
      exact .inr ⟨hnone, rfl⟩

/-- An access of an admission on both sides: the row each leaves is the one it found, or a new one if there was
none. -/
structure BothAdmit (s s' : Stores) (after after' : AdmitPhase × Stores) : Prop where
  alike : after.1.Alike after'.1
  same : after.2.Same after'.2
  files : after.2.files = s.files
  files' : after'.2.files = s'.files
  row : after.2.row = s.row ∧ after'.2.row = s'.row ∨
    after.2.row = some (s.row.getD .new) ∧ after'.2.row = some (s'.row.getD .new)

theorem BothAdmit.look {s s' : Stores} {phase phase' : AdmitPhase} (hsame : s.Same s') (halike : phase.Alike phase') :
    BothAdmit s s' (phase, s) (phase', s') :=
  ⟨halike, hsame, rfl, rfl, .inl ⟨rfl, rfl⟩⟩

theorem AdmitPhase.Alike.not_revokes {phase phase' : AdmitPhase} (h : phase.Alike phase') : ¬ phase.Revokes := by
  cases h <;> exact id

section

variable (source : SecretSource) (pubkey : PublicKey) (epoch : Nat) (s : Stores) (phase : AdmitPhase)

theorem AdmitPhase.access_denylisted : (phase.access source pubkey epoch s).2.denylisted = s.denylisted := by
  have hkeys := congrArg Prod.snd (access_toKeys source pubkey epoch s phase)
  exact (congrArg Keys.denylisted hkeys).trans next_denylisted

theorem AdmitPhase.access_screened {phase : AdmitPhase} (hrevokes : ¬ phase.Revokes)
    (hscreened : phase.Screened → (source.enforceDenylist && s.denylisted) = false)
    (h : (phase.access source pubkey epoch s).1.Screened) : (source.enforceDenylist && s.denylisted) = false := by
  have hphase := congrArg Prod.fst (access_toKeys source pubkey epoch s phase)
  rw [hphase] at h
  exact (@next_screened source.toAdmissionSource false s.toKeys phase hrevokes hscreened).2 h

end

theorem AdmitPhase.Alike.access {phase phase' : AdmitPhase} (h : phase.Alike phase') {s s' : Stores}
    (hsame : s.Same s') (pubkey : PublicKey) (epoch : Nat)
    (hscreened : phase.Screened → (SecretSource.rawSecret.enforceDenylist && s.denylisted) = false) :
    BothAdmit s s' (phase.access .rawSecret pubkey epoch s) (phase'.access .rawSecret pubkey epoch s') := by
  cases h with
  | start =>
    dsimp only [AdmitPhase.access]
    rw [← hsame.denylisted]
    split
    · exact .look hsame (.done _)
    · exact .look hsame .screened
  | screened =>
    dsimp only [AdmitPhase.access]
    rw [← hsame.inMap]
    split
    · exact .look hsame (.done _)
    · exact .look hsame .absent
  | absent =>
    have hdenied := hscreened trivial
    dsimp only [AdmitPhase.access]
    rw [← hsame.denylisted, hdenied]
    exact .look hsame .cleared
  | cleared => exact .look hsame (.held _ _)
  | held b b' => exact ⟨.added _ _, { hsame with isLocal := rfl }, rfl, rfl, .inl ⟨rfl, rfl⟩⟩
  | added b b' => exact ⟨.mapped _ _, { hsame with inMap := rfl }, rfl, rfl, .inl ⟨rfl, rfl⟩⟩
  | mapped b b' => exact ⟨.stored _ _, { hsame with }, rfl, rfl, .inr ⟨rfl, rfl⟩⟩
  | unstored => exact ⟨.undoing, { hsame with isLocal := rfl }, rfl, rfl, .inl ⟨rfl, rfl⟩⟩
  | undoing => exact ⟨.done _, { hsame with inMap := rfl }, rfl, rfl, .inl ⟨rfl, rfl⟩⟩
  | stored b b' =>
    have hdenied := hscreened trivial
    have hmachine : (s.announce pubkey epoch).machine = (s'.announce pubkey epoch).machine :=
      congrArg (Option.map (ForwardWindowMachine.registerForImport · pubkey epoch)) hsame.machine
    dsimp only [AdmitPhase.access]
    rw [← hsame.denylisted, hdenied]
    exact ⟨.admitted _ _, { hsame with machine := hmachine, keyGen := congrArg (· + 1) hsame.keyGen }, rfl, rfl,
      .inl ⟨rfl, rfl⟩⟩
  | admitted b b' => exact .look hsame (.admitted _ _)
  | done outcome => exact .look hsame (.done _)

/-! ### What the import does before it finds the key -/

namespace ImportAt

/-- The import has admitted nothing, and may still return `Duplicate`. -/
def Harmless : ImportAt → Prop
  | admitting _ .start | admitting _ .screened | admitting _ (.done .alreadyPresent) => True
  | admitting _ _ => False
  | rollingBack _ | unmapping _ | discarding _ | clearing | settling | readmitting _ | imported | failed => False
  | _ => True

/-- The row, if there is a window, has the hold of this import. -/
def wrote : ImportAt → Bool
  | held _ | publishing _ | publishingMeta _ | admitting _ _ | lateDuplicate => true
  | duplicate .held | duplicate .admitting => true
  | _ => false

def RowBeside (holdUntil : Option Nat) (importing : ImportAt) (row row' : Option ValidatorConfig) : Prop :=
  if importing.wrote then AfterHold holdUntil row row' else row = row'

/-- The files on the boot path with the import where it is, from those it found. -/
def FilesBeside (before files : KeyFiles) : ImportAt → Prop
  | publishingMeta _ | admitting _ _ | lateDuplicate => True
  | duplicate .admitting => files.keystore = none ∧ files.importMeta = none
  | _ => files.SameBoot before

theorem RowBeside.admission {holdUntil : Option Nat} {importing : ImportAt} {row row' : Option ValidatorConfig}
    (h : importing.RowBeside holdUntil row row') :
    importing.RowBeside holdUntil (some (row.getD .new)) (some (row'.getD .new)) := by
  unfold RowBeside at h ⊢
  split
  · next hwrote =>
    rw [if_pos hwrote] at h
    exact h.admission
  · next hwrote =>
    rw [if_neg hwrote] at h
    rw [h]

variable {job : ImportJob} {epoch : Nat} {s : Stores} {importing : ImportAt}

theorem harmless_of_access (h : (importing.access job epoch s).1.Harmless) : importing.Harmless := by
  cases importing with
  | admitting preinserted phase =>
    cases phase with
    | done outcome => cases outcome <;> trivial
    | start | screened => trivial
    | absent => exact h
    | cleared | mapped insertedRow =>
      dsimp only [access, AdmitPhase.access] at h
      split at h <;> exact h
    | _ => exact h
  | _ => trivial

theorem access_same (h : (importing.access job epoch s).1.Harmless) : (importing.access job epoch s).2.Same s := by
  cases importing with
  | admitting preinserted phase =>
    cases phase with
    | done outcome => cases outcome <;> exact ⟨rfl, rfl, rfl, rfl, rfl, rfl, rfl⟩
    | start => exact ⟨rfl, rfl, rfl, rfl, rfl, rfl, rfl⟩
    | screened =>
      dsimp only [access, AdmitPhase.access]
      split <;> exact ⟨rfl, rfl, rfl, rfl, rfl, rfl, rfl⟩
    | _ => exact (harmless_of_access h).elim
  | rollingBack _ | unmapping _ | discarding _ | clearing | settling | readmitting _ => exact h.elim
  | _ =>
    dsimp only [access]
    repeat' split
    all_goals exact ⟨rfl, rfl, rfl, rfl, rfl, rfl, rfl⟩

/-- The hold a windowed import is about to write is the one it computed. -/
def Windowed (holdUntil : Option Nat) : ImportAt → Prop
  | absent untilUnix => holdUntil = some untilUnix
  | _ => True

theorem access_windowed : (importing.access job epoch s).1.Windowed job.holdUntil := by
  cases importing with
  | staged =>
    dsimp only [access]
    split
    · trivial
    · split
      · next h => exact h
      · trivial
  | admitting preinserted phase =>
    dsimp only [access]
    split <;> trivial
  | _ =>
    dsimp only [access]
    repeat' split
    all_goals trivial

theorem access_rowBeside {row' : Option ValidatorConfig} (h : (importing.access job epoch s).1.Harmless)
    (hwindowed : importing.Windowed job.holdUntil) (hrow : importing.RowBeside job.holdUntil s.row row') :
    (importing.access job epoch s).1.RowBeside job.holdUntil (importing.access job epoch s).2.row row' := by
  cases importing with
  | staged =>
    dsimp only [access]
    split
    · exact hrow
    · split
      · exact hrow
      · next hnone =>
        rw [hnone]
        exact hrow
  | absent untilUnix =>
    rw [hwindowed]
    exact ⟨s.row, rfl, .inl hrow.symm⟩
  | held preinserted =>
    dsimp only [access]
    split <;> exact hrow
  | waiting =>
    dsimp only [access]
    repeat' split
    all_goals exact hrow
  | admitting preinserted phase =>
    cases phase with
    | done outcome =>
      cases outcome with
      | alreadyPresent => exact hrow
      | _ => exact h.elim
    | start => exact hrow
    | screened =>
      dsimp only [access, AdmitPhase.access]
      split <;> exact hrow
    | _ => exact (harmless_of_access h).elim
  | rollingBack _ | unmapping _ | discarding _ | clearing | settling | readmitting _ => exact h.elim
  | _ => exact hrow

theorem access_filesBeside {before : KeyFiles} (h : (importing.access job epoch s).1.Harmless)
    (hfiles : importing.FilesBeside before s.files) :
    (importing.access job epoch s).1.FilesBeside before (importing.access job epoch s).2.files := by
  cases importing with
  | admitting preinserted phase =>
    cases phase with
    | done outcome =>
      cases outcome with
      | alreadyPresent => trivial
      | _ => exact h.elim
    | _ => trivial
  | lateDuplicate => exact ⟨rfl, rfl⟩
  | publishing _ | publishingMeta _ => trivial
  | rollingBack _ | unmapping _ | discarding _ | clearing | settling | readmitting _ => exact h.elim
  | duplicate found => exact hfiles
  | _ =>
    dsimp only [access]
    repeat' split
    all_goals exact hfiles

end ImportAt

/-! ### Every run -/

namespace Racing

variable {ι : Type} {job : ImportJob} {before : KeyFiles} {r r' : Racing ι}

/-- A run with an import that has admitted nothing yet, beside the same run without it. -/
structure Beside (job : ImportJob) (before : KeyFiles) (r r' : Racing ι) : Prop where
  same : r.stores.Same r'.stores
  admits : ∀ i, (r.admits i).Alike (r'.admits i)
  screened : ∀ i, (r.admits i).Screened → (SecretSource.rawSecret.enforceDenylist && r.stores.denylisted) = false
  windowed : r.importing.Windowed job.holdUntil
  row : r.importing.RowBeside job.holdUntil r.stores.row r'.stores.row
  files : r.importing.FilesBeside before r.stores.files
  files' : r'.stores.files = before

theorem beside_begin (stores : Stores) : Beside job stores.files (begin stores : Racing ι) (begin stores) where
  same := ⟨rfl, rfl, rfl, rfl, rfl, rfl, rfl⟩
  admits _ := .start
  screened _ h := h.elim
  windowed := trivial
  row := rfl
  files := ⟨rfl, rfl⟩
  files' := rfl

variable [DecidableEq ι] {epoch : Nat}

open ImportAt

theorem Beside.importing (h : Beside job before r r') (hnext : (r.importing.access job epoch r.stores).1.Harmless) :
    Beside job before (r.step job (.importing epoch)) r' := by
  have hkept := access_same hnext
  exact {
    same := {
      isLocal := hkept.isLocal.trans h.same.isLocal
      inMap := hkept.inMap.trans h.same.inMap
      denylisted := hkept.denylisted.trans h.same.denylisted
      quiesced := hkept.quiesced.trans h.same.quiesced
      machine := hkept.machine.trans h.same.machine
      keyGen := hkept.keyGen.trans h.same.keyGen
      perKey := hkept.perKey.trans h.same.perKey }
    admits := h.admits
    screened := fun i hi => by
      rw [step, hkept.denylisted]
      exact h.screened i hi
    windowed := access_windowed
    row := access_rowBeside hnext h.windowed h.row
    files := access_filesBeside hnext h.files
    files' := h.files' }

theorem Beside.admitting (h : Beside job before r r') (i : ι) :
    Beside job before (r.step job (.admitting i epoch)) (r'.step job (.admitting i epoch)) := by
  have hboth := (h.admits i).access h.same job.pubkey epoch (h.screened i)
  have hdenylisted := (r.admits i).access_denylisted .rawSecret job.pubkey epoch r.stores
  refine ⟨hboth.same, fun j => ?_, fun j hj => ?_, h.windowed, ?_, ?_, hboth.files'.trans h.files'⟩
  · by_cases hji : j = i
    · simp only [step, hji, update_self]
      exact hboth.alike
    · simp only [step, update_of_ne hji]
      exact h.admits j
  · simp only [step, hdenylisted]
    by_cases hji : j = i
    · simp only [step, hji, update_self] at hj
      exact AdmitPhase.access_screened .rawSecret job.pubkey epoch r.stores (h.admits i).not_revokes (h.screened i) hj
    · simp only [step, update_of_ne hji] at hj
      exact h.screened j hj
  · rcases hboth.row with ⟨hrow, hrow'⟩ | ⟨hrow, hrow'⟩
    · simp only [step, hrow, hrow']
      exact h.row
    · simp only [step, hrow, hrow']
      exact h.row.admission
  · simp only [step, hboth.files]
    exact h.files

theorem Beside.run (h : r.importing.Harmless → Beside job before r r') (turns : List (Turn ι))
    (hend : (r.run job turns).importing.Harmless) :
    Beside job before (r.run job turns) (r'.runWithout job turns) := by
  induction turns generalizing r r' with
  | nil => exact h hend
  | cons turn turns ih =>
    cases turn with
    | importing epoch => exact ih (fun hnext => (h (harmless_of_access hnext)).importing hnext) hend
    | admitting i epoch => exact ih (fun hnext => (h hnext).admitting i) hend

/-- An import that returns `Duplicate`, in any order of its steps and those of the admissions, beside the same run
without it. Signer, map, denylist, quiesce registry, window and generation are the same. So is the row, unless
the import has a window and has found the key after it wrote its hold: then the row is the one there was with that hold.
The files on the boot path are the same, unless the import has renamed its own to there: then none is left. -/
theorem duplicate_import_beside (stores : Stores) (turns : List (Turn ι)) (found : Found)
    (hduplicate : ((begin stores).run job turns).importing = .duplicate found) :
    ((begin stores).run job turns).stores.Same ((begin stores).runWithout job turns).stores ∧
    (found = .inSigner ∨ found = .staged ∨ job.holdUntil = none →
      ((begin stores).run job turns).stores.row = ((begin stores).runWithout job turns).stores.row) ∧
    (∀ untilUnix, (found = .held ∨ found = .admitting) → job.holdUntil = some untilUnix →
      ∃ row, ((begin stores).run job turns).stores.row = some (heldRow untilUnix row) ∧
        (((begin stores).runWithout job turns).stores.row = row ∨
          row = none ∧ ((begin stores).runWithout job turns).stores.row = some .new)) ∧ (found ≠ .admitting →
      ((begin stores).run job turns).stores.files.SameBoot ((begin stores).runWithout job turns).stores.files) ∧
    (found = .admitting → ((begin stores).run job turns).stores.files.keystore = none ∧
        ((begin stores).run job turns).stores.files.importMeta = none) := by
  have hbeside : Beside job stores.files ((begin stores).run job turns) ((begin stores).runWithout job turns) :=
    Beside.run (fun _ => beside_begin stores) turns (by rw [hduplicate]; trivial)
  have hrow := hbeside.row
  have hfiles := hbeside.files
  rw [hduplicate] at hrow hfiles
  rw [hbeside.files']
  refine ⟨hbeside.same, fun hfound => ?_, fun untilUnix hfound huntil => ?_, fun hfound => ?_, fun hfound => ?_⟩
  · rcases hfound with hfound | hfound | hnone
    · rw [hfound] at hrow
      exact hrow
    · rw [hfound] at hrow
      exact hrow
    · rw [hnone] at hrow
      cases found <;> exact hrow
  · rw [huntil] at hrow
    rcases hfound with hfound | hfound
    · rw [hfound] at hrow
      exact hrow
    · rw [hfound] at hrow
      exact hrow
  · cases found with
    | admitting => exact absurd rfl hfound
    | _ => exact hfiles
  · rw [hfound] at hfiles
    exact hfiles

def heldImport : ImportJob := ⟨⟨List.replicate 48 28, rfl⟩, "keystore", "imported", some 30⟩

def leftoverFile : Stores := ⟨false, false, none, false, false, none, 0, 0, ⟨none, none, some "leftover", none⟩⟩

/-- The import renames its files and looks at the denylist, the refresh admits the key, and the import finds it. -/
def lateRefresh : List (Turn Unit) :=
  List.replicate 8 (.importing 5) ++ List.replicate 9 (.admitting () 5) ++ List.replicate 3 (.importing 5)

/-- The refreshed key stays disabled under the hold of the import, and the file that was there is gone. -/
theorem duplicate_import_leaves_hold :
    ((begin leftoverFile).run heldImport lateRefresh).importing = .duplicate .admitting ∧
      ((begin leftoverFile).run heldImport lateRefresh).admits () = .done (.admitted false) ∧
      ((begin leftoverFile).run heldImport lateRefresh).stores.row = some (heldRow 30 none) ∧
      ((begin leftoverFile).runWithout heldImport lateRefresh).stores.row = some .new ∧
      ((begin leftoverFile).run heldImport lateRefresh).stores.files.keystore = none ∧
      ((begin leftoverFile).runWithout heldImport lateRefresh).stores.files.keystore = some "leftover" := by
  decide

theorem duplicate_import_beside_lateRefresh :
    ((begin leftoverFile).run heldImport lateRefresh).importing = .duplicate .admitting ∧
      ((begin leftoverFile).run heldImport lateRefresh).stores.Same
        ((begin leftoverFile).runWithout heldImport lateRefresh).stores :=
  ⟨by decide, (duplicate_import_beside leftoverFile lateRefresh .admitting (by decide)).1⟩

end Racing

end Rvc.KeymanagerAdapters
