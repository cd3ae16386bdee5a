import Mathlib.Data.Set.Insert
import Rvc.Signer.Locks
import Rvc.Slashing.Protection

/-!
# The slashable signing core

`sign_slashable` of `core.rs`: the lock, the enablement check under it, the timeout policy, then
`reserve_then_sign`, which commits the history row, contacts the backend and, for the outcomes its policy
says so, deletes the row again. `dispatchSign` is the table of outcomes.

`SignStep` is the process: any number of such tasks over one lock map and one database, each step what
the code does between two points where others may run, next to the imports, watermark writes and prunes
that other parts of the program do. A signature comes to exist when the backend produces it, not when it
answers; after an ambiguous answer under a retaining policy it may still come to exist at any time.
-/

namespace Rvc.Signer

open Rvc.Lib Rvc.EthTypes Rvc.Slashing

/-! ### Outcomes -/

/-- What to do with the row when the sign times out or fails ambiguously. -/
inductive TimeoutPolicy where
  | discardStagedRow
  | retainStagedRow
  deriving DecidableEq

inductive TimeoutPolicySource where
  | fixed (policy : TimeoutPolicy)
  | resolveUnderLock
  deriving DecidableEq

def failClosedMax : TimeoutPolicy → TimeoutPolicy → TimeoutPolicy
  | .retainStagedRow, _ => .retainStagedRow
  | _, .retainStagedRow => .retainStagedRow
  | .discardStagedRow, .discardStagedRow => .discardStagedRow

/-- The policy under the lock, where `answer` is what the resolver says. -/
def TimeoutPolicySource.resolve (source : TimeoutPolicySource) (answer : TimeoutPolicy) : TimeoutPolicy :=
  match source with
  | .fixed policy => policy
  | .resolveUnderLock => answer

/-- The policy just before the backend is contacted; a fixed one is not checked again. -/
def TimeoutPolicySource.recheck (source : TimeoutPolicySource) (policy answer : TimeoutPolicy) : TimeoutPolicy :=
  match source with
  | .fixed _ => policy
  | .resolveUnderLock => failClosedMax policy answer

inductive SigningError where
  | keyNotFound (key : String)
  | localRejected (reason : String)
  | remoteSignerError (reason : String)
  | invalidRemoteSignature
  | unsupportedSigningType (signingType : String)
  | unsupportedDuty (duty : String)
  | signerLacksGloasSupport (rpc details : String)
  deriving DecidableEq

def SigningError.display : SigningError → String
  | .keyNotFound key => s!"key not found: {key}"
  | .localRejected reason => s!"signing rejected locally (no remote contact): {reason}"
  | .remoteSignerError reason => s!"remote signer error: {reason}"
  | .invalidRemoteSignature => "remote signer returned invalid signature"
  | .unsupportedSigningType signingType => s!"unsupported remote signing type: {signingType}"
  | .unsupportedDuty duty => s!"unsupported duty: {duty}"
  | .signerLacksGloasSupport rpc details => s!"signer does not support Gloas duties ({rpc}): {details}"

def SigningError.isUnambiguousNoSignature : SigningError → Bool
  | .keyNotFound _ => true
  | .localRejected _ => true
  | .unsupportedSigningType _ => true
  | .unsupportedDuty _ => true
  | .signerLacksGloasSupport _ _ => true
  | .remoteSignerError _ => false
  | .invalidRemoteSignature => false

inductive SigningGateError where
  | blockedByDoppelganger
  | slashingBlocked (source : SlashingError)
  | commitFailed (signingRoot : Root) (source : SlashingError)
  | signingFailed (reason : String)
  | keyNotFound
  deriving DecidableEq

def mapReserveError (signingRoot : Root) (err : SlashingError) : SigningGateError :=
  if err.isReserveCommitFailure then .commitFailed signingRoot err else .slashingBlocked err

inductive SignResult where
  | elapsed
  | signed (signature : List UInt8)
  | failed (error : SigningError)
  deriving DecidableEq

inductive Disposition where
  | release (signature : List UInt8)
  | reconcile (error : SigningGateError)
  | retain (error : SigningGateError)
  deriving DecidableEq

/-- `finish_reserve_timeout` and `finish_reserve_ambiguous`. -/
def finishByPolicy (policy : TimeoutPolicy) (error : SigningGateError) : Disposition :=
  match policy with
  | .discardStagedRow => .reconcile error
  | .retainStagedRow => .retain error

def dispatchSign (policy : TimeoutPolicy) : SignResult → Disposition
  | .elapsed => finishByPolicy policy (.signingFailed "signer timed out")
  | .signed signature => .release signature
  | .failed error =>
      if error.isUnambiguousNoSignature then
        .reconcile (match error with
          | .keyNotFound _ => .keyNotFound
          | other => .signingFailed other.display)
      else
        finishByPolicy policy (.signingFailed error.display)

theorem dispatchSign_ambiguous {error : SigningError} (h : error.isUnambiguousNoSignature = false)
    (policy : TimeoutPolicy) :
    dispatchSign policy (.failed error) = finishByPolicy policy (.signingFailed error.display) := by
  unfold dispatchSign
  simp only [h, Bool.false_eq_true, if_false]

/-! ### Requests -/

/-- Messages that can be slashed for: their slot or epochs, all below `2 ^ 63`, and a signing root that no
two of them share. -/
class SlashableMessage (M : Type) where
  kind : M → ReservationKind
  signingRoot : M → Root
  small : ∀ m, (kind m).Small
  signingRoot_injective : Function.Injective signingRoot

structure Request (M : Type) where
  pubkey : PubkeyBytes
  message : M
  gvr : Root
  policy : TimeoutPolicySource
  opName : String

variable {M : Type} [SlashableMessage M]

def signingRootHex (m : M) : String := Hex.encode (SlashableMessage.signingRoot m).1

def Request.spec (request : Request M) : ReserveSpec :=
  .of (Hex.encode request.pubkey.1) (SlashableMessage.kind request.message)
    (some (signingRootHex request.message)) request.gvr

/-! ### Tasks -/

inductive Phase where
  | waiting
  | locked
  | resolved (policy : TimeoutPolicy)
  | reserved (policy : TimeoutPolicy) (reservation : CommittedReservation)
  /-- The backend works on it, and has or has not produced a signature. -/
  | contacted (policy : TimeoutPolicy) (reservation : CommittedReservation) (produced : Bool)
  | reconciling (reservation : CommittedReservation) (error : SigningGateError)
  | returned (result : Except SigningGateError (List UInt8))
  | finished (result : Except SigningGateError (List UInt8))
  | lost

def Phase.holdsLock : Phase → Bool
  | .waiting => false
  | .finished _ => false
  | .lost => false
  | _ => true

def Phase.isContacted : Phase → Bool
  | .contacted _ _ _ => true
  | _ => false

def Phase.afterReserve (signingRoot : Root) (policy : TimeoutPolicy) : Except SlashingError CommittedReservation → Phase
  | .ok reservation => .reserved policy reservation
  | .error e => .returned (.error (mapReserveError signingRoot e))

def Phase.afterSign (reservation : CommittedReservation) : Disposition → Phase
  | .release signature => .returned (.ok signature)
  | .reconcile error => .reconciling reservation error
  | .retain error => .returned (.error error)

structure SignState (M : Type) where
  tables : Tables
  locks : LockState
  phase : Nat → Phase
  possiblySigned : Set (PubkeyBytes × M)

def SignState.init (gvr : Option String) : SignState M :=
  ⟨{ Tables.empty with metadataGvr := gvr }, .new, fun _ => .waiting, ∅⟩

section

variable (s : SignState M)

def SignState.setPhase (i : Nat) (phase : Phase) : SignState M :=
  { s with phase := Function.update s.phase i phase }

def SignState.mark (request : Request M) : SignState M :=
  { s with possiblySigned := insert (request.pubkey, request.message) s.possiblySigned }

/-- The assumption on backends: an answer that says so comes with no signature, and under the discarding
policy no timeout or error does. -/
def BackendTruthful (policy : TimeoutPolicy) (result : SignResult) (produced : Bool) : Prop :=
  match result with
  | .signed _ => produced = true
  | .elapsed => policy = .discardStagedRow → produced = false
  | .failed error =>
      error.isUnambiguousNoSignature = true ∨ policy = .discardStagedRow → produced = false

/-- The backend's answer arrives; when the row is retained for it, a signature may still come. -/
def SignState.respond (request : Request M) (i : Nat)
    (reservation : CommittedReservation) (disposition : Disposition) : SignState M :=
  let answered := s.setPhase i (.afterSign reservation disposition)
  match disposition with
  | .retain _ => answered.mark request
  | _ => answered

/-- The blocking task panics: the guard is still dropped, the row stays. -/
def SignState.panic (request : Request M) (i : Nat) (reason : String) : SignState M :=
  let failed := s.setPhase i (.returned (.error (.signingFailed (request.opName ++ " task panicked: " ++ reason))))
  if (s.phase i).isContacted then failed.mark request else failed

/-- The process dies and starts again on the same database: what the backends have may still be signed. -/
def SignState.restart (requests : Nat → Request M) : SignState M where
  tables := s.tables
  locks := .new
  phase i := if (s.phase i).holdsLock then .lost else s.phase i
  possiblySigned := s.possiblySigned ∪
    {signed | ∃ i, (s.phase i).isContacted = true ∧ signed = ((requests i).pubkey, (requests i).message)}

end

section

variable (db : SlashingDb) (capacity : Nat) (requests : Nat → Request M)

/-- One step of the process; `requests` are the requests it will ever get. -/
inductive SignStep (s : SignState M) : SignState M → Prop
  | lockTraffic {locks : LockState} (h : LockStep capacity .quiet s.locks locks) : SignStep s { s with locks := locks }
  | lock {locks : LockState} (i : Nat) (hphase : s.phase i = .waiting)
      (h : LockStep capacity (.acquired (requests i).pubkey) s.locks locks) :
      SignStep s { s.setPhase i .locked with locks := locks }
  | disabled (i : Nat) (hphase : s.phase i = .locked) :
      SignStep s (s.setPhase i (.returned (.error .blockedByDoppelganger)))
  | resolve (i : Nat) (hphase : s.phase i = .locked) (answer : TimeoutPolicy) :
      SignStep s (s.setPhase i (.resolved ((requests i).policy.resolve answer)))
  /-- `check_gvr_before_lock` refuses, or the batch fails to persist: an error and no change. -/
  | reserveFailed (i : Nat) {policy : TimeoutPolicy} (hphase : s.phase i = .resolved policy)
      (e : SlashingError) : SignStep s (s.setPhase i
        (.afterReserve (SlashableMessage.signingRoot (requests i).message) policy (.error e)))
  | reserve (i : Nat) {policy : TimeoutPolicy} (hphase : s.phase i = .resolved policy) :
      SignStep s { s.setPhase i (.afterReserve (SlashableMessage.signingRoot (requests i).message) policy
            (Slashing.reserve db s.tables (requests i).spec).1) with
          tables := (Slashing.reserve db s.tables (requests i).spec).2 }
  | contact (i : Nat) {policy : TimeoutPolicy} {reservation : CommittedReservation}
      (hphase : s.phase i = .reserved policy reservation) (answer : TimeoutPolicy) : SignStep s
        (s.setPhase i (.contacted ((requests i).policy.recheck policy answer) reservation false))
  | produce (i : Nat) {policy : TimeoutPolicy} {reservation : CommittedReservation}
      (hphase : s.phase i = .contacted policy reservation false) : SignStep s
        ((s.setPhase i (.contacted policy reservation true)).mark (requests i))
  | respond (i : Nat) {policy : TimeoutPolicy} {reservation : CommittedReservation}
      {produced : Bool} (hphase : s.phase i = .contacted policy reservation produced) (result : SignResult)
      (htruthful : BackendTruthful policy result produced) : SignStep s
        (s.respond (requests i) i reservation (dispatchSign policy result))
  | reconcile (i : Nat) {reservation : CommittedReservation} {error : SigningGateError}
      (hphase : s.phase i = .reconciling reservation error) (faults : ReconcileFaults) : SignStep s
        { s.setPhase i (.returned (.error error)) with
          tables := (reconcileUnsigned faults ⟨s.tables, none⟩ reservation).2.committed }
  | release {locks : LockState} (i : Nat) {result : Except SigningGateError (List UInt8)}
      (hphase : s.phase i = .returned result)
      (h : LockStep capacity (.released (requests i).pubkey) s.locks locks) :
      SignStep s { s.setPhase i (.finished result) with locks := locks }
  | panicked (i : Nat) (hphase : (s.phase i).holdsLock = true) (reason : String) :
      SignStep s (s.panic (requests i) i reason)
  | importFile (faults : ImportFaults) {file : InterchangeFormat} (hfile : file.Small) (gvr : Root) : SignStep s
        { s with tables := (importInterchange faults ⟨s.tables, none⟩ file gvr).2.committed }
  | setBlockWatermark {tables : Tables} {pubkey : String} {slot : Nat}
      (hslot : slot < 2 ^ 63) (h : Slashing.setBlockWatermark s.tables pubkey slot = .ok tables) :
      SignStep s { s with tables := tables }
  | setAttestationWatermark {tables : Tables} {pubkey : String} {source target : Nat}
      (hsource : source < 2 ^ 63) (htarget : target < 2 ^ 63)
      (h : Slashing.setAttestationWatermark s.tables pubkey source target = .ok tables) :
      SignStep s { s with tables := tables }
  | prune {tables : Tables} {stats : PruneStats}
      (h : pruneBelowWatermarks s.tables = .ok (tables, stats)) : SignStep s { s with tables := tables }
  | restart : SignStep s (s.restart requests)

end

end Rvc.Signer
