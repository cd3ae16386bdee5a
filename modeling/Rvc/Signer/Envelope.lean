import Rvc.Lib.Ownership
import Rvc.Signer.Core

/-!
# One payload envelope per slot

`sign_execution_payload_envelope_root` of `lib.rs`. A call first puts its `(pubkey, slot)` into
`envelope_slots` and is refused when it is there already; a guard then decides, whenever the call ends or is
dropped, whether the entry stays. It goes only after an error that means that nothing was signed.

`EnvelopeStep` is any number of such calls on one service, each step what a call does between two points
where others may run. The backend is a party of its own: once contacted it comes to an outcome at any time,
also when the call has timed out or its future was dropped. The roots and domains go to the backend only,
whose outcome is arbitrary, and are not kept here.
-/

namespace Rvc.Signer

open Rvc.Lib Rvc.EthTypes Function

/-! ### Errors -/

inductive SignerError where
  | keyNotFound (pubkey : String)
  | signingFailed (reason : String)
  | blockedByDoppelganger
  | unsupportedDuty (duty : String)
  | envelopeSlotAlreadySigned (slot : Nat)
  deriving DecidableEq

/-- The characters of `chars` that fit in `max` bytes of UTF-8. -/
def takeBytes : Nat → List Char → List Char
  | _, [] => []
  | max, c :: chars => if c.utf8Size ≤ max then c :: takeBytes (max - c.utf8Size) chars else []

def truncateErrorBody (msg : String) (max : Nat) : String :=
  if msg.utf8ByteSize ≤ max then msg
  else String.ofList (takeBytes max msg.toList) ++ "... (truncated)"

def SignerError.ofSigningError : SigningError → SignerError
  | .keyNotFound pubkey => .keyNotFound pubkey
  | .localRejected msg => .signingFailed (truncateErrorBody msg 200)
  | .remoteSignerError msg => .signingFailed (truncateErrorBody msg 200)
  | .invalidRemoteSignature => .signingFailed "remote signer returned invalid signature"
  | .unsupportedSigningType msg => .signingFailed s!"unsupported remote signing type: {msg}"
  | .unsupportedDuty duty => .unsupportedDuty duty
  | .signerLacksGloasSupport rpc details =>
      .signingFailed (truncateErrorBody s!"signer does not support Gloas duties ({rpc}): {details}" 200)

inductive NonSlashableFailure where
  | timedOut
  | keyNotFound
  | backend (error : SigningError)
  | blocked
  deriving DecidableEq

def nonslashableCoreResult : SignResult → Except NonSlashableFailure (List UInt8)
  | .elapsed => .error .timedOut
  | .signed signature => .ok signature
  | .failed (.keyNotFound _) => .error .keyNotFound
  | .failed error => .error (.backend error)

def nonslashableResult (pubkey : PubkeyBytes) :
    Except NonSlashableFailure (List UInt8) → Except SignerError (List UInt8)
  | .ok signature => .ok signature
  | .error .blocked => .error .blockedByDoppelganger
  | .error .timedOut => .error (.signingFailed "signer timed out")
  | .error .keyNotFound => .error (.ofSigningError (.keyNotFound (Hex.encode pubkey.1)))
  | .error (.backend error) => .error (.ofSigningError error)

def envelopeSlotIsUnambiguousNoSignature : SignerError → Bool
  | .keyNotFound _ => true
  | .blockedByDoppelganger => true
  | .unsupportedDuty _ => true
  | _ => false

/-! ### The slot guard -/

inductive EnvelopeSlotState where
  | inFlight
  | signed
  deriving DecidableEq

abbrev EnvelopeSlots := PubkeyBytes × Nat → Option EnvelopeSlotState

structure EnvelopeSlotGuard where
  key : PubkeyBytes × Nat
  release : Bool
  deriving DecidableEq

namespace EnvelopeSlotGuard

/-- `EnvelopeSlotGuard::reserve`: the guard, and the map with the entry. -/
def reserve (slots : EnvelopeSlots) (pk : PubkeyBytes) (slot : Nat) :
    Except SignerError (EnvelopeSlotGuard × EnvelopeSlots) :=
  if (slots (pk, slot)).isSome then .error (.envelopeSlotAlreadySigned slot)
  else .ok (⟨(pk, slot), false⟩, update slots (pk, slot) (some .inFlight))

/-- `guard.release()` after an error that means that nothing was signed. -/
def settle (guard : EnvelopeSlotGuard) : Except SignerError (List UInt8) → EnvelopeSlotGuard
  | .ok _ => guard
  | .error e => if envelopeSlotIsUnambiguousNoSignature e then { guard with release := true } else guard

def drop (guard : EnvelopeSlotGuard) (slots : EnvelopeSlots) : EnvelopeSlots :=
  if guard.release then
    if slots guard.key = some .inFlight then update slots guard.key none else slots
  else update slots guard.key (some .signed)

end EnvelopeSlotGuard

/-! ### Calls -/

structure EnvelopeCall where
  pubkey : PubkeyBytes
  slot : Nat

def EnvelopeCall.key (call : EnvelopeCall) : PubkeyBytes × Nat := (call.pubkey, call.slot)

abbrev BackendOutcome := Except SigningError (List UInt8)

def BackendOutcome.toSignResult : BackendOutcome → SignResult
  | .ok signature => .signed signature
  | .error error => .failed error

/-- How the attempt of a call came to its result; only the proofs read it. -/
inductive EnvelopeEnding where
  | gateClosed
  | answered (outcome : BackendOutcome)
  | timedOut

inductive EnvelopePhase where
  | start
  | reserved (guard : EnvelopeSlotGuard)
  | enabled (guard : EnvelopeSlotGuard)
  | signing (guard : EnvelopeSlotGuard)
  | returning (guard : EnvelopeSlotGuard) (ending : EnvelopeEnding) (result : Except SignerError (List UInt8))
  | finished (ending : EnvelopeEnding) (result : Except SignerError (List UInt8))
  | refused (error : SignerError)
  | dropped

/-- The guard of a call that may be dropped. After the result is known nothing is awaited any more. -/
def EnvelopePhase.guard? : EnvelopePhase → Option EnvelopeSlotGuard
  | .reserved guard => some guard
  | .enabled guard => some guard
  | .signing guard => some guard
  | _ => none

inductive BackendState where
  | idle
  | contacted
  | done (outcome : BackendOutcome)

structure EnvelopeState (ι : Type) where
  slots : EnvelopeSlots
  phase : ι → EnvelopePhase
  backend : ι → BackendState

variable {ι : Type} [DecidableEq ι]

namespace EnvelopeState

def init : EnvelopeState ι := ⟨fun _ => none, fun _ => .start, fun _ => .idle⟩

section

variable (s : EnvelopeState ι) (i : ι)

def setPhase (phase : EnvelopePhase) : EnvelopeState ι :=
  { s with phase := update s.phase i phase }

def setBackend (backend : BackendState) : EnvelopeState ι :=
  { s with backend := update s.backend i backend }

def reserve (call : EnvelopeCall) (i : ι) : EnvelopeState ι :=
  match EnvelopeSlotGuard.reserve s.slots call.pubkey call.slot with
  | .error e => s.setPhase i (.refused e)
  | .ok (guard, slots) => { s.setPhase i (.reserved guard) with slots := slots }

def settle (guard : EnvelopeSlotGuard) (ending : EnvelopeEnding) (result : Except SignerError (List UInt8)) :
    EnvelopeState ι :=
  s.setPhase i (.returning (guard.settle result) ending result)

end

end EnvelopeState

/-- One step of the service; `calls` are the calls it will ever get. -/
inductive EnvelopeStep (calls : ι → EnvelopeCall) (s : EnvelopeState ι) : EnvelopeState ι → Prop
  | reserve (i : ι) (hphase : s.phase i = .start) : EnvelopeStep calls s (s.reserve (calls i) i)
  | gateClosed (i : ι) {guard : EnvelopeSlotGuard} (hphase : s.phase i = .reserved guard) :
      EnvelopeStep calls s (s.settle i guard .gateClosed (.error .blockedByDoppelganger))
  | gateOpen (i : ι) {guard : EnvelopeSlotGuard} (hphase : s.phase i = .reserved guard) :
      EnvelopeStep calls s (s.setPhase i (.enabled guard))
  /-- The gate was closed before `sign_nonslashable_core` looks at it again. -/
  | coreGateClosed (i : ι) {guard : EnvelopeSlotGuard} (hphase : s.phase i = .enabled guard) :
      EnvelopeStep calls s (s.settle i guard .gateClosed (nonslashableResult (calls i).pubkey (.error .blocked)))
  | contact (i : ι) {guard : EnvelopeSlotGuard} (hphase : s.phase i = .enabled guard) :
      EnvelopeStep calls s ((s.setPhase i (.signing guard)).setBackend i .contacted)
  /-- The backend comes to an outcome, whatever has become of the call. -/
  | outcome (i : ι) (hbackend : s.backend i = .contacted) (outcome : BackendOutcome) :
      EnvelopeStep calls s (s.setBackend i (.done outcome))
  | answer (i : ι) {guard : EnvelopeSlotGuard} {outcome : BackendOutcome}
      (hphase : s.phase i = .signing guard) (hbackend : s.backend i = .done outcome) :
      EnvelopeStep calls s (s.settle i guard (.answered outcome)
          (nonslashableResult (calls i).pubkey (nonslashableCoreResult outcome.toSignResult)))
  /-- The timeout elapses; the backend may have come to an outcome that has not arrived. -/
  | timeout (i : ι) {guard : EnvelopeSlotGuard} (hphase : s.phase i = .signing guard) : EnvelopeStep calls s
        (s.settle i guard .timedOut (nonslashableResult (calls i).pubkey (nonslashableCoreResult .elapsed)))
  | finish (i : ι) {guard : EnvelopeSlotGuard} {ending : EnvelopeEnding}
      {result : Except SignerError (List UInt8)} (hphase : s.phase i = .returning guard ending result) :
      EnvelopeStep calls s { s.setPhase i (.finished ending result) with slots := guard.drop s.slots }
  | drop (i : ι) {guard : EnvelopeSlotGuard} (hguard : (s.phase i).guard? = some guard) :
      EnvelopeStep calls s { s.setPhase i .dropped with slots := guard.drop s.slots }

/-! ### What the entries of the map stand for -/

/-- The result says that nothing was signed: a missing key, an unsupported duty or a closed gate. -/
def saysUnsigned : Except SignerError (List UInt8) → Bool
  | .ok _ => false
  | .error e => envelopeSlotIsUnambiguousNoSignature e

/-- The outcome is a missing key or an unsupported duty, with which no signature comes. -/
def BackendOutcome.isUnsigned : BackendOutcome → Bool
  | .error (.keyNotFound _) => true
  | .error (.unsupportedDuty _) => true
  | _ => false

/-- The attempt met a closed gate, or was answered that there is nothing to sign with. -/
def EnvelopeEnding.isUnsigned : EnvelopeEnding → Bool
  | .gateClosed => true
  | .answered outcome => outcome.isUnsigned
  | .timedOut => false

/-- The backend was not contacted, or had nothing to sign with. -/
def BackendState.Unsigned : BackendState → Prop
  | .idle => True
  | .contacted => False
  | .done outcome => outcome.isUnsigned = true

namespace EnvelopePhase

def slotState : EnvelopePhase → Option EnvelopeSlotState
  | .start => none
  | .reserved _ => some .inFlight
  | .enabled _ => some .inFlight
  | .signing _ => some .inFlight
  | .returning _ _ _ => some .inFlight
  | .finished _ result => if saysUnsigned result then none else some .signed
  | .refused _ => none
  | .dropped => some .signed

/-- What a call at this point knows of its guard and of the backend. -/
def Consistent (key : PubkeyBytes × Nat) (b : BackendState) : EnvelopePhase → Prop
  | .start => b = .idle
  | .reserved guard => guard = ⟨key, false⟩ ∧ b = .idle
  | .enabled guard => guard = ⟨key, false⟩ ∧ b = .idle
  | .signing guard => guard = ⟨key, false⟩
  | .returning guard ending result =>
      guard = ⟨key, saysUnsigned result⟩ ∧ saysUnsigned result = ending.isUnsigned ∧ (saysUnsigned result → b.Unsigned)
  | .finished ending result => saysUnsigned result = ending.isUnsigned ∧ (saysUnsigned result → b.Unsigned)
  | .refused _ => b = .idle
  | .dropped => True

end EnvelopePhase

theorem EnvelopeSlotGuard.settle_new (key : PubkeyBytes × Nat) (result : Except SignerError (List UInt8)) :
    settle ⟨key, false⟩ result = ⟨key, saysUnsigned result⟩ := by
  cases result with
  | ok signature => rfl
  | error e =>
    show (if envelopeSlotIsUnambiguousNoSignature e then _ else _) = _
    split <;> rename_i h <;> simp [saysUnsigned, h]

/-- No error is taken for another on its way from the backend to the caller. -/
theorem BackendOutcome.saysUnsigned_result (pubkey : PubkeyBytes) (outcome : BackendOutcome) :
    saysUnsigned (nonslashableResult pubkey (nonslashableCoreResult outcome.toSignResult)) = outcome.isUnsigned := by
  cases outcome with
  | ok signature => rfl
  | error e => cases e <;> rfl

/-- The map has exactly the entries that the calls account for. -/
structure EnvelopeState.Inv (calls : ι → EnvelopeCall) (s : EnvelopeState ι) : Prop where
  kept : KeptBy (fun i => (calls i).key) (fun i => (s.phase i).slotState) s.slots
  each : ∀ i, (s.phase i).Consistent (calls i).key (s.backend i)

variable {phase : EnvelopePhase}

namespace EnvelopeState.Inv

variable {calls : ι → EnvelopeCall} {s : EnvelopeState ι} {i : ι}

omit [DecidableEq ι] in
theorem init : Inv calls (init : EnvelopeState ι) :=
  ⟨KeptBy.empty, fun _ => rfl⟩

omit [DecidableEq ι] in
theorem of_phase (h : Inv calls s) (hphase : s.phase i = phase) : phase.Consistent (calls i).key (s.backend i) :=
  hphase ▸ h.each i

theorem setEach (h : Inv calls s) {b : BackendState} (hphase : phase.Consistent (calls i).key b) (j : ι) :
    (update s.phase i phase j).Consistent (calls j).key (update s.backend i b j) := by
  by_cases hj : j = i
  · subst hj
    simpa using hphase
  · simpa only [update_of_ne hj] using h.each j

theorem slotState_update (phase : EnvelopePhase) : (fun j => (update s.phase i phase j).slotState) =
      update (fun j => (s.phase j).slotState) i phase.slotState := by
  funext j
  exact apply_update (fun _ => EnvelopePhase.slotState) s.phase i phase j

theorem move (h : Inv calls s) {b : BackendState}
    (hslot : phase.slotState = (s.phase i).slotState) (hphase : phase.Consistent (calls i).key b) :
    Inv calls ((s.setPhase i phase).setBackend i b) := by
  refine ⟨?_, h.setEach hphase⟩
  show KeptBy _ (fun j => (update s.phase i phase j).slotState) s.slots
  rw [slotState_update, hslot, update_eq_self]
  exact h.kept

theorem moveCall (h : Inv calls s) (hslot : phase.slotState = (s.phase i).slotState)
    (hphase : phase.Consistent (calls i).key (s.backend i)) : Inv calls (s.setPhase i phase) := by
  have hmoved := h.move hslot hphase
  simpa only [setBackend, setPhase, update_eq_self] using hmoved

variable {guard : EnvelopeSlotGuard}

section

variable (h : Inv calls s)

include h

open EnvelopeSlotGuard

theorem settle {ending : EnvelopeEnding} {result : Except SignerError (List UInt8)}
    (hslot : (s.phase i).slotState = some .inFlight) (hguard : guard = ⟨(calls i).key, false⟩)
    (hresult : saysUnsigned result = ending.isUnsigned)
    (hbackend : saysUnsigned result = true → (s.backend i).Unsigned) :
    Inv calls (s.settle i guard ending result) := by
  subst hguard
  exact h.moveCall hslot.symm ⟨settle_new _ result, hresult, hbackend⟩

theorem write (hi : (s.phase i).slotState ≠ none ∨ s.slots (calls i).key = none)
    (hphase : phase.Consistent (calls i).key (s.backend i)) {slots : EnvelopeSlots}
    (hslots : slots = update s.slots (calls i).key phase.slotState) :
    Inv calls { s.setPhase i phase with slots := slots } := by
  refine ⟨?_, ?_⟩
  · subst hslots
    show KeptBy _ (fun j => (update s.phase i phase j).slotState) _
    rw [slotState_update]
    exact h.kept.set hi phase.slotState
  · intro j
    have hall := h.setEach hphase j
    rwa [update_eq_self] at hall

theorem reserve (hphase : s.phase i = .start) : Inv calls (s.reserve (calls i) i) := by
  have hidle : s.backend i = .idle := h.of_phase hphase
  unfold EnvelopeState.reserve EnvelopeSlotGuard.reserve
  by_cases hentry : (s.slots ((calls i).pubkey, (calls i).slot)).isSome
  · simp only [hentry, if_true]
    apply h.moveCall
    · rw [hphase]
      rfl
    · exact hidle
  · simp only [hentry]
    have hfree : s.slots (calls i).key = none := Option.not_isSome_iff_eq_none.mp hentry
    refine h.write (.inr hfree) ?_ ?_
    · exact ⟨rfl, hidle⟩
    · rfl

theorem finish {ending : EnvelopeEnding} {result : Except SignerError (List UInt8)}
    (hphase : s.phase i = .returning guard ending result) :
    Inv calls { s.setPhase i (.finished ending result) with slots := guard.drop s.slots } := by
  obtain ⟨rfl, hunsigned⟩ := h.of_phase hphase
  have hheld : (s.phase i).slotState = some .inFlight := by rw [hphase]; rfl
  have hentry : s.slots (calls i).key = some .inFlight := h.kept.entry hheld
  refine h.write (.inl (by simp [hheld])) ?_ ?_
  · exact hunsigned
  · unfold drop EnvelopePhase.slotState
    by_cases hsaid : saysUnsigned result = true <;> simp [hsaid, hentry]

theorem drop (hguard : (s.phase i).guard? = some guard) :
    Inv calls { s.setPhase i .dropped with slots := guard.drop s.slots } := by
  have hcall := h.each i
  have hrunning : guard = ⟨(calls i).key, false⟩ ∧ (s.phase i).slotState ≠ none := by
    cases hphase : s.phase i <;> rw [hphase] at hguard hcall <;> cases hguard
    · exact ⟨hcall.1, nofun⟩
    · exact ⟨hcall.1, nofun⟩
    · exact ⟨hcall, nofun⟩
  obtain ⟨rfl, hheld⟩ := hrunning
  refine h.write (.inl hheld) ?_ ?_
  · trivial
  · rfl

theorem outcome (hbackend : s.backend i = .contacted) (outcome : BackendOutcome) :
    Inv calls (s.setBackend i (.done outcome)) := by
  have hcall := h.each i
  rw [hbackend] at hcall
  have hdone : (s.phase i).Consistent (calls i).key (.done outcome) := by
    cases hphase : s.phase i <;> rw [hphase] at hcall
    case signing => exact hcall
    case dropped => trivial
    case returning => exact ⟨hcall.1, hcall.2.1, fun hsaid => (hcall.2.2 hsaid).elim⟩
    case finished => exact ⟨hcall.1, fun hsaid => (hcall.2 hsaid).elim⟩
    case start | refused => cases hcall
    case reserved | enabled => cases hcall.2
  have hmoved := h.move rfl hdone
  simpa only [setPhase, update_eq_self] using hmoved

theorem step {s' : EnvelopeState ι} (hstep : EnvelopeStep calls s s') : Inv calls s' := by
  cases hstep with
  | reserve i hphase => exact h.reserve hphase
  | gateClosed i hphase =>
    have hcall := h.of_phase hphase
    exact h.settle (by rw [hphase]; rfl) hcall.1 rfl (fun _ => by rw [hcall.2]; trivial)
  | gateOpen i hphase =>
    have hcall := h.of_phase hphase
    exact h.moveCall (by rw [hphase]; rfl) hcall
  | coreGateClosed i hphase =>
    have hcall := h.of_phase hphase
    exact h.settle (by rw [hphase]; rfl) hcall.1 rfl (fun _ => by rw [hcall.2]; trivial)
  | contact i hphase =>
    have hcall := h.of_phase hphase
    exact h.move (by rw [hphase]; rfl) hcall.1
  | outcome i hbackend outcome => exact h.outcome hbackend outcome
  | answer i hphase hbackend =>
    have hcall := h.of_phase hphase
    have hresult := BackendOutcome.saysUnsigned_result (calls i).pubkey
    apply h.settle (by rw [hphase]; rfl) hcall (hresult _)
    intro hsaid
    rw [hbackend]
    exact (hresult _).symm.trans hsaid
  | timeout i hphase =>
    have hcall := h.of_phase hphase
    exact h.settle (by rw [hphase]; rfl) hcall rfl nofun
  | finish i hphase => exact h.finish hphase
  | drop i hguard => exact h.drop hguard

end

end EnvelopeState.Inv

def EnvelopeReachable (calls : ι → EnvelopeCall) (s : EnvelopeState ι) : Prop :=
  Relation.ReflTransGen (EnvelopeStep calls) .init s

theorem EnvelopeReachable.inv {calls : ι → EnvelopeCall} {s : EnvelopeState ι}
    (h : EnvelopeReachable calls s) : s.Inv calls := by
  induction h with
  | refl => exact .init
  | tail _ hstep ih => exact ih.step hstep

omit [DecidableEq ι] in
theorem EnvelopeState.Inv.slotState_ne_none {calls : ι → EnvelopeCall} {s : EnvelopeState ι}
    (h : s.Inv calls) {i : ι} {outcome : BackendOutcome} (hdone : s.backend i = .done outcome)
    (hsigned : outcome.isUnsigned = false) : (s.phase i).slotState ≠ none := by
  have hcall := h.each i
  rw [hdone] at hcall
  have hcontradiction : ¬ (BackendState.done outcome).Unsigned := by simp [BackendState.Unsigned, hsigned]
  cases hphase : s.phase i <;> rw [hphase] at hcall
  case start | refused => cases hcall
  case reserved | enabled | signing | returning | dropped => exact nofun
  case finished ending result =>
    have hsaid : saysUnsigned result = false := by
      by_contra hsaid
      exact hcontradiction (hcall.2 (by simpa using hsaid))
    simp [EnvelopePhase.slotState, hsaid]

/-- A call that is not running, and of which nothing is left to fear: it has not begun, was refused, or its attempt
ended at a closed gate or with an answer of the backend that it has nothing to sign with. -/
def EnvelopePhase.EndedUnsigned : EnvelopePhase → Prop
  | .start => True
  | .refused _ => True
  | .finished ending _ => ending.isUnsigned = true
  | _ => False

theorem EnvelopePhase.EndedUnsigned.slotState_eq_none {key : PubkeyBytes × Nat} {b : BackendState}
    (h : phase.EndedUnsigned) (hcall : phase.Consistent key b) : phase.slotState = none := by
  cases phase with
  | finished ending result => exact if_pos (hcall.1.trans h)
  | start | refused e => rfl
  | reserved g | enabled g | signing g | returning g e r | dropped => exact h.elim

/-- However the calls interleave, of those for one key and slot the backend comes to an outcome other than a
missing key or an unsupported duty for one at most. And where the attempts of all of them ended at a closed gate or
with one of these two as the backend's answer, the slot can be reserved again. -/
theorem one_envelope_per_slot {calls : ι → EnvelopeCall} {s : EnvelopeState ι} (h : EnvelopeReachable calls s) :
    (∀ i j outcome outcome', (calls i).key = (calls j).key → s.backend i = .done outcome → outcome.isUnsigned = false →
      s.backend j = .done outcome' → outcome'.isUnsigned = false → i = j) ∧
    ∀ pubkey slot, (∀ i, (calls i).key = (pubkey, slot) → (s.phase i).EndedUnsigned) →
      EnvelopeSlotGuard.reserve s.slots pubkey slot =
        .ok (⟨(pubkey, slot), false⟩, Function.update s.slots (pubkey, slot) (some .inFlight)) := by
  refine ⟨?_, ?_⟩
  · intro i j outcome outcome' hkey hi hsigned hj hsigned'
    have hheld := h.inv.slotState_ne_none hi hsigned
    have hheld' := h.inv.slotState_ne_none hj hsigned'
    exact h.inv.kept.unique hkey hheld hheld'
  · intro pubkey slot hended
    have hfree : s.slots (pubkey, slot) = none :=
      h.inv.kept.eq_none fun i hkey => (hended i hkey).slotState_eq_none (h.inv.each i)
    simp [EnvelopeSlotGuard.reserve, hfree]

namespace Envelope

def twice : Bool → EnvelopeCall := fun _ => ⟨⟨List.replicate 48 43, rfl⟩, 9⟩

/-- The first of two calls has been answered that the key is missing; the second has not begun. -/
theorem betweenCalls_reachable : ∃ (s : EnvelopeState Bool) (result : Except SignerError (List UInt8)),
    EnvelopeReachable twice s ∧ s.phase false = .finished (.answered (.error (.keyNotFound "2b"))) result ∧
      s.phase true = .start := by
  have hreserved : EnvelopeReachable twice (EnvelopeState.init.reserve (twice false) false) :=
    .single (.reserve false rfl)
  have hcontacted := (hreserved.tail (.gateOpen false rfl)).tail (.contact false rfl)
  have hanswered := (hcontacted.tail (.outcome false rfl (.error (.keyNotFound "2b")))).tail (.answer false rfl rfl)
  exact ⟨_, _, hanswered.tail (.finish false rfl), rfl, rfl⟩

/-- After a missing key the slot is free again. -/
theorem one_envelope_per_slot_key_missing : ∃ s : EnvelopeState Bool, EnvelopeReachable twice s ∧
      (∃ result, s.phase false = .finished (.answered (.error (.keyNotFound "2b"))) result) ∧
      EnvelopeSlotGuard.reserve s.slots (twice true).pubkey 9 =
        .ok (⟨(twice true).key, false⟩, Function.update s.slots (twice true).key (some .inFlight)) := by
  obtain ⟨s, result, hreachable, hfinished, hstart⟩ := betweenCalls_reachable
  refine ⟨s, hreachable, ⟨result, hfinished⟩, (one_envelope_per_slot hreachable).2 _ _ ?_⟩
  intro i _
  cases i with
  | false =>
    rw [hfinished]
    rfl
  | true =>
    rw [hstart]
    trivial

end Envelope

end Rvc.Signer
