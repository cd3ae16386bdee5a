import Rvc.Signer.Gate
import Rvc.SignerServer.Dvt.PeerService

/-!
# Two signing paths on one database

The gate and the peer service of one process share the database (`grpc.rs`). A task of the gate works under
the lock of its key and uses the connection twice, for the reserve and for the compensating delete; a call of
a peer takes no such lock and holds the connection from its check to its commit.

A call that found its row to be in the tables already does not write one, so it needs the row of another call
to stay. The delete of the gate does not take it: it names the row by its root, and the paths spell roots
differently. For the same reason the paths refuse each other's messages.
-/

namespace Rvc.SignerServer.Dvt

open Rvc.Lib Rvc.EthTypes Rvc.Slashing Rvc.Observability Rvc.Signer SlashableMessage Option System Function Tables

variable {M : Type} [SlashableMessage M]

/-! ### The system -/

inductive PeerPhase where
  | waiting
  | staged (share : ShareInfo) (row : StagedRow)
  | signed (share : ShareInfo) (row : StagedRow) (signature : List UInt8)
  | returned (result : Except Status PartialSignResponse)

def PeerPhase.row? : PeerPhase → Option StagedRow
  | .staged _ row => some row
  | .signed _ row _ => some row
  | _ => none

def PeerPhase.isReleased : PeerPhase → Bool
  | .returned (.ok _) => true
  | _ => false

/-- The gate, the open transaction with the call that holds the connection for it, and the calls. -/
structure System where
  gate : Gate
  txn : Option Tables
  holder : Option Nat
  peer : Nat → PeerPhase

namespace System

def new (tables : Tables) : System := ⟨.new tables, none, none, fun _ => .waiting⟩

section

variable (s : System)

def conn : Conn Tables := ⟨s.gate.tables, s.txn⟩

def answer (c : Conn Tables) (holder : Option Nat) (i : Nat) (phase : PeerPhase) : System :=
  ⟨{ s.gate with tables := c.committed }, c.txn, holder, update s.peer i phase⟩

def stage (request : PartialSignRequest M) (db : SlashingDb) (faults : StageFaults)
    (share : ShareInfo) (i : Nat) : System :=
  match request.stage db faults s.conn with
  | (.error status, c) => s.answer c none i (.returned (.error status))
  | (.ok row, c) => s.answer c (some i) i (.staged share row)

def sign (service : PeerSignerService) (request : PartialSignRequest M) (share : ShareInfo)
    (row : StagedRow) (i : Nat) : System :=
  match service.partialSignWithShare (SlashableMessage.signingRoot request.message) share with
  | .error status => s.answer (discardStaged s.conn) none i (.returned (.error status))
  | .ok signature => s.answer s.conn s.holder i (.signed share row signature)

def commit (faults : CommitFaults) (share : ShareInfo) (row : StagedRow) (signature : List UInt8) (i : Nat) : System :=
  match commitSigned faults s.conn row ⟨signature, share.index⟩ with
  | (result, c) => s.answer c none i (.returned result)

end

end System

section

variable (service : PeerSignerService) (db : SlashingDb) (capacity : Nat) (requests : Nat → Request M)
  (calls : Nat → PartialSignRequest M)

/-- One step of the system. Whoever uses the connection waits until no call holds it. -/
inductive Step (s : System) : System → Prop
  | gate {g : Gate} {label : GateLabel} (h : GateStep db capacity requests label s.gate g)
      (hfree : label = .database → s.holder = none) : Step s { s with gate := g }
  | refuse (i : Nat) (hphase : s.peer i = .waiting) {status : Status} (h : service.admit (calls i) = .error status) :
      Step s (s.answer s.conn s.holder i (.returned (.error status)))
  | stage (i : Nat) (hphase : s.peer i = .waiting) {share : ShareInfo}
      (h : service.admit (calls i) = .ok (db, share)) (hfree : s.holder = none) (faults : StageFaults) :
      Step s (s.stage (calls i) db faults share i)
  | sign (i : Nat) {share : ShareInfo} {row : StagedRow}
      (hphase : s.peer i = .staged share row) : Step s (s.sign service (calls i) share row i)
  | commit (i : Nat) {share : ShareInfo} {row : StagedRow} {signature : List UInt8}
      (hphase : s.peer i = .signed share row signature) (faults : CommitFaults) :
      Step s (s.commit faults share row signature i)
  | panicked (i : Nat) {row : StagedRow} (hphase : (s.peer i).row? = some row)
      (reason : String) : Step s (s.answer (discardStaged s.conn) none i
        (.returned (.error ⟨.internal, (calls i).opName ++ " blocking task panicked: " ++ reason⟩)))

end

/-- The signatures that were handed out: those of the gate and the partial ones. -/
inductive Released (requests : Nat → Request M) (calls : Nat → PartialSignRequest M) (s : System) :
    Signer.PubkeyBytes → M → RowIdentity → Prop
  | gate (i : Nat) {signature : List UInt8} (h : s.gate.phase i = .finished (.ok signature)) :
      Released requests calls s (requests i).pubkey (requests i).message
        (identityOf (requests i).pubkey (requests i).message)
  | peer (i : Nat) {response : PartialSignResponse} (h : s.peer i = .returned (.ok response)) :
      Released requests calls s (calls i).pubkey (calls i).message (peerIdentityOf (calls i).pubkey (calls i).message)

/-! ### The invariant -/

def System.PeerNeeds (s : System) (calls : Nat → PartialSignRequest M) (id : RowIdentity) : Prop :=
  ∃ i, (s.peer i).isReleased = true ∧ id = peerIdentityOf (calls i).pubkey (calls i).message

/-- A staged row was accepted by the rules on the tables as they still are. -/
structure StagedInv (db : SlashingDb) (call : PartialSignRequest M) (s : System) (i : Nat) (row : StagedRow) :
    Prop where
  holder : s.holder = some i
  txn : s.txn = some s.gate.tables
  accepted : ∃ reservation, SpecAccepted db s.gate.tables call.spec reservation ∧
    row = call.spec.staged reservation.inserted

structure Inv (db : SlashingDb) (requests : Nat → Request M) (calls : Nat → PartialSignRequest M)
    (s : System) : Prop where
  gate : GateInv (PeerIdentity M) (s.PeerNeeds calls) requests s.gate
  free : s.holder = none → s.txn = none
  staged : ∀ i row, (s.peer i).row? = some row → StagedInv db (calls i) s i row

theorem foreign_peerIdentity : Foreign M (PeerIdentity M) := by
  rintro id ⟨pubkey, m, rfl⟩
  refine ⟨small m, fun m' hroot => ?_⟩
  exact rootHex_ne_encode _ _ (some.inj hroot)

theorem kind_of_rootHex (m : M) (id : RowIdentity) (hid : KnownIdentity M id ∨ PeerIdentity M id)
    (hroot : id.signingRoot = some (rootHex (SlashableMessage.signingRoot m))) :
    id.kind = SlashableMessage.kind m := by
  rcases hid with ⟨pubkey, m', rfl⟩ | ⟨pubkey, m', rfl⟩
  · exact absurd (some.inj hroot).symm (rootHex_ne_encode _ _)
  · have hroots := rootHex_injective (some.inj hroot)
    exact congrArg kind (signingRoot_injective hroots)

section

variable {service : PeerSignerService} {db : SlashingDb} {capacity : Nat} {requests : Nat → Request M}
  {calls : Nat → PartialSignRequest M} {s s' : System} {i : Nat} {pubkey : Signer.PubkeyBytes} {m : M}
  {id : RowIdentity}

theorem System.peerNeeds_of_answer {c : Conn Tables} {holder : Option Nat} {phase : PeerPhase}
    {id : RowIdentity} (hphase : phase.isReleased = false)
    (h : (s.answer c holder i phase).PeerNeeds calls id) : s.PeerNeeds calls id := by
  obtain ⟨j, hj, rfl⟩ := h
  by_cases hji : j = i
  · subst hji
    simp [answer, hphase] at hj
  · exact ⟨j, by simpa [answer, update_of_ne hji] using hj, rfl⟩

namespace Inv

theorem new {tables : Tables} (hsound : tables.Sound fun id => KnownIdentity M id ∨ PeerIdentity M id) :
    Inv db requests calls (.new tables) := by
  have hnone : ∀ id, ¬ (System.new tables).PeerNeeds calls id := by
    rintro id ⟨i, hi, -⟩
    cases hi
  exact ⟨.new (fun id hid => absurd hid (hnone id)) hsound
    ⟨fun id hid => absurd hid (hnone id), fun id _ hid => absurd hid (hnone id)⟩, fun _ => rfl, nofun⟩

theorem row_eq_none (h : Inv db requests calls s) {j : Nat} (hholder : s.holder ≠ some j) : (s.peer j).row? = none := by
  cases hrow : (s.peer j).row? with
  | none => rfl
  | some row => exact absurd (h.staged j row hrow).holder hholder

theorem answer (h : Inv db requests calls s) {txn : Option Tables} {holder : Option Nat} {phase : PeerPhase}
    (hphase : phase.isReleased = false) (hfree : holder = none → txn = none) (hown : ∀ row, phase.row? = some row →
      StagedInv db (calls i) (s.answer ⟨s.gate.tables, txn⟩ holder i phase) i row)
    (hothers : ∀ j row, j ≠ i → (s.peer j).row? = some row → holder = s.holder ∧ txn = s.txn) :
    Inv db requests calls (s.answer ⟨s.gate.tables, txn⟩ holder i phase) := by
  refine ⟨?_, hfree, fun j row hrow => ?_⟩
  · refine h.gate.write (fun id hid => h.gate.foreign id (System.peerNeeds_of_answer hphase hid)) h.gate.sound ?_
    exact h.gate.keeps.mono fun id hid => hid.imp_right (System.peerNeeds_of_answer hphase)
  · by_cases hji : j = i
    · subst hji
      exact hown row (by simpa [System.answer] using hrow)
    · have hrow' : (s.peer j).row? = some row := by
        simpa [System.answer, Function.update_of_ne hji] using hrow
      obtain ⟨rfl, rfl⟩ := hothers j row hji hrow'
      have hstaged := h.staged j row hrow'
      exact ⟨hstaged.holder, hstaged.txn, hstaged.accepted⟩

theorem fail (h : Inv db requests calls s) (hheld : s.holder = none ∨ s.holder = some i) (status : Status) :
    Inv db requests calls (s.answer ⟨s.gate.tables, none⟩ none i (.returned (.error status))) := by
  refine h.answer rfl (fun _ => rfl) nofun fun j row hji hrow => ?_
  have hholder := (h.staged j row hrow).holder
  rcases hheld with hnone | hsome
  · rw [hnone] at hholder
    cases hholder
  · rw [hsome] at hholder
    exact absurd (some.inj hholder).symm hji

variable {row : StagedRow}

section

variable (h : Inv db requests calls s)

include h

theorem discard (hrow : (s.peer i).row? = some row) (status : Status) :
    Inv db requests calls (s.answer (discardStaged s.conn) none i (.returned (.error status))) := by
  have hrolled : discardStaged s.conn = ⟨s.gate.tables, none⟩ := Conn.eq_of_rollback rfl
  rw [hrolled]
  exact h.fail (.inr (h.staged i row hrow).holder) status

theorem stage (hholder : s.holder = none) (faults : StageFaults)
    (share : ShareInfo) : Inv db requests calls (s.stage (calls i) db faults share i) := by
  have hconn : s.conn = ⟨s.gate.tables, none⟩ := by rw [System.conn, h.free hholder]
  unfold System.stage
  rw [hconn]
  rcases (calls i).stage_cases db faults s.gate.tables with ⟨status, heq⟩ | ⟨reservation, hacc, heq⟩
  · rw [heq]
    exact h.fail (.inl hholder) status
  · rw [heq]
    refine h.answer rfl nofun (fun row hrow => ?_) fun j row hji hrow => ?_
    · cases hrow
      exact ⟨rfl, rfl, reservation, hacc, rfl⟩
    · have hheld := (h.staged j row hrow).holder
      rw [hholder] at hheld
      cases hheld

theorem sign {share : ShareInfo} (hphase : s.peer i = .staged share row) :
    Inv db requests calls (s.sign service (calls i) share row i) := by
  have hrow : (s.peer i).row? = some row := by
    rw [hphase]
    rfl
  unfold System.sign
  cases service.partialSignWithShare (SlashableMessage.signingRoot (calls i).message) share with
  | error status => exact h.discard hrow status
  | ok signature =>
    refine h.answer rfl h.free (fun row' hrow' => ?_) fun _ _ _ _ => ⟨rfl, rfl⟩
    cases hrow'
    have hstaged := h.staged i row hrow
    exact ⟨hstaged.holder, hstaged.txn, hstaged.accepted⟩

theorem release (hrow : (s.peer i).row? = some row)
    {reservation : CommittedReservation} (hacc : SpecAccepted db s.gate.tables (calls i).spec reservation)
    (response : PartialSignResponse) :
    Inv db requests calls (s.answer ⟨s.gate.tables.afterReserve (calls i).spec reservation, none⟩ none i
      (.returned (.ok response))) := by
  have hpeer : PeerIdentity M (calls i).spec.identity := ⟨(calls i).pubkey, (calls i).message, rfl⟩
  have hneeds : ∀ id, (s.answer ⟨s.gate.tables.afterReserve (calls i).spec reservation, none⟩ none i
      (.returned (.ok response))).PeerNeeds calls id →
      s.PeerNeeds calls id ∨ id = (calls i).spec.identity := by
    rintro id ⟨j, hj, rfl⟩
    by_cases hji : j = i
    · subst hji
      exact .inr rfl
    · exact .inl ⟨j, by simpa [System.answer, Function.update_of_ne hji] using hj, rfl⟩
  refine ⟨h.gate.write (fun id hid => ?_) ?_ ?_, fun _ => rfl, fun j row' hrow' => ?_⟩
  · rcases hneeds id hid with hid | rfl
    · exact h.gate.foreign id hid
    · exact hpeer
  · exact h.gate.sound.reserve hacc (SlashableMessage.small (calls i).message) (.inr hpeer)
  · refine h.gate.keeps.reserve h.gate.sound hacc foreign_peerIdentity.small h.gate.known_of_needed
      (.inr hpeer) (kind_of_rootHex (calls i).message) ?_
    rintro id (hid | hid)
    · exact .inl (.inl hid)
    · exact (hneeds id hid).imp_left .inr
  · by_cases hji : j = i
    · subst hji
      simp [System.answer, PeerPhase.row?] at hrow'
    · have hnone := h.row_eq_none (j := j) fun hj => by
        rw [(h.staged i row hrow).holder] at hj
        exact hji (Option.some.inj hj).symm
      simp [System.answer, Function.update_of_ne hji, hnone] at hrow'

theorem commit {share : ShareInfo}
    {signature : List UInt8} (hphase : s.peer i = .signed share row signature) (faults : CommitFaults) :
    Inv db requests calls (s.commit faults share row signature i) := by
  have hrow : (s.peer i).row? = some row := by
    rw [hphase]
    rfl
  obtain ⟨hholder, htxn, reservation, hacc, rfl⟩ := h.staged i row hrow
  have hconn : s.conn = ⟨s.gate.tables, some s.gate.tables⟩ := by rw [System.conn, htxn]
  unfold System.commit
  rw [hconn]
  rcases commitSigned_cases hacc faults ⟨signature, share.index⟩ with heq | ⟨status, heq⟩
  · rw [heq]
    exact h.release hrow hacc _
  · rw [heq]
    exact h.fail (.inr hholder) status

theorem gateStep {g : Gate} {label : GateLabel}
    (hstep : GateStep db capacity requests label s.gate g) (hfree : label = .database → s.holder = none) :
    Inv db requests calls { s with gate := g } := by
  refine ⟨h.gate.step foreign_peerIdentity hstep, h.free, fun j row hrow => ?_⟩
  obtain ⟨hholder, htxn, hacc⟩ := h.staged j row hrow
  have htables : g.tables = s.gate.tables := by
    refine hstep.tables_eq fun hlabel => ?_
    rw [hfree hlabel] at hholder
    cases hholder
  rw [← htables] at htxn hacc
  exact ⟨hholder, htxn, hacc⟩

/-- **Every step keeps the invariant.** -/
theorem step (hstep : Step service db capacity requests calls s s') : Inv db requests calls s' := by
  cases hstep with
  | gate hstep hfree => exact h.gateStep hstep hfree
  | refuse i hphase hrefused => exact h.answer rfl h.free nofun fun _ _ _ _ => ⟨rfl, rfl⟩
  | stage i hphase hrefused hfree faults => exact h.stage hfree faults _
  | sign i hphase => exact h.sign hphase
  | commit i hphase faults => exact h.commit hphase faults
  | panicked i hrow reason => exact h.discard hrow _

end

end Inv

/-! ### Released signatures -/

namespace Released

section

variable (h : Released requests calls s pubkey m id)

include h

theorem needed : s.gate.Needs requests id ∨ s.PeerNeeds calls id := by
  cases h with
  | gate i hi => exact .inl ⟨i, by rw [hi]; rfl, rfl⟩
  | peer i hi => exact .inr ⟨i, by rw [hi]; rfl, rfl⟩

theorem pubkey_eq : id.pubkey = normalizePubkey (Hex.encode pubkey.1) := by
  cases h with
  | gate => rfl
  | peer => exact normalizePubkey_pubkeyHex _

theorem kind_eq : id.kind = SlashableMessage.kind m := by
  cases h <;> rfl

end

theorem message_eq {m' : M} (h : Released requests calls s pubkey m id)
    (h' : Released requests calls s pubkey m' id) : m = m' := by
  have hid : ∀ m, Released requests calls s pubkey m id →
      id.signingRoot = some (signingRootHex m) ∨
        id.signingRoot = some (rootHex (signingRoot m)) := by
    intro m hm
    cases hm with
    | gate => exact .inl rfl
    | peer => exact .inr rfl
  rcases hid m h with hroot | hroot <;> rcases hid m' h' with hroot' | hroot'
  · exact signingRootHex_injective (some.inj (hroot.symm.trans hroot'))
  · exact absurd (some.inj (hroot'.symm.trans hroot)) (rootHex_ne_encode _ _)
  · exact absurd (some.inj (hroot.symm.trans hroot')) (rootHex_ne_encode _ _)
  · have hroots := rootHex_injective (some.inj (hroot.symm.trans hroot'))
    exact signingRoot_injective hroots

end Released

end

/-- **Two paths, one database.** From any sound tables and in every interleaving of tasks of the gate and calls
of peers, no two signatures of a key that were handed out, full or partial, are for a slashable pair, and each
still has its row. -/
theorem two_paths_safe {service : PeerSignerService} {db : SlashingDb} {capacity : Nat}
    {requests : Nat → Request M} {calls : Nat → PartialSignRequest M} {tables : Tables} {s : System}
    (hsound : tables.Sound fun id => KnownIdentity M id ∨ PeerIdentity M id)
    (hrun : Relation.ReflTransGen (Step service db capacity requests calls) (.new tables) s) :
    (∀ pubkey m m' id id', Released requests calls s pubkey m id → Released requests calls s pubkey m' id' →
      ¬ SlashablePair m m') ∧
    ∀ pubkey m id, Released requests calls s pubkey m id → s.gate.tables.Records id := by
  have hinv : Inv db requests calls s := by
    induction hrun with
    | refl => exact .new hsound
    | tail _ hstep ih => exact ih.step hstep
  refine ⟨fun pubkey m m' id id' h h' hpair => ?_, fun pubkey m id h => hinv.gate.keeps.recorded id h.needed⟩
  have hconf : id.kind.Conflicts id'.kind := by
    rw [h.kind_eq, h'.kind_eq]
    exact hpair.2
  have hpubkey : id.pubkey = id'.pubkey := h.pubkey_eq.trans h'.pubkey_eq.symm
  obtain rfl := hinv.gate.keeps.apart id id' h.needed h'.needed hpubkey hconf
  exact hpair.1 (h.message_eq h')

def sampleService : PeerSignerService where
  shares _ := some ⟨2, zeroRoot⟩
  allowList := [⟨"peer-a.cluster.local", 1⟩]
  slashingDb := some ⟨true, 0⟩
  secretKey _ := some fun root => root.1

/-- Both paths work on one vote: while the call has it staged the task comes to its reserve, and is refused
after the commit. The vote is signed once and has its row, and the vote around it is not signed. -/
theorem two_paths_safe_sameVote :
    let key : Signer.PubkeyBytes := ⟨List.replicate 48 12, rfl⟩
    let requests : Nat → Request SampleVote := fun _ =>
      ⟨key, .inner, zeroRoot, .fixed .discardStagedRow, "attestation"⟩
    let calls : Nat → PartialSignRequest SampleVote := fun _ =>
      ⟨"partial_sign_attestation_data", "peer-a.cluster.local", 1, key, .inner, zeroRoot⟩
    ∃ s : System, Released requests calls s key .inner (peerIdentityOf key SampleVote.inner) ∧
      s.gate.tables.Records (peerIdentityOf key SampleVote.inner) ∧
      (∃ e, s.gate.phase 0 = .returned (.error e)) ∧
      ∀ id, ¬ Released requests calls s key .outer id := by
  intro key requests calls
  let db : SlashingDb := ⟨true, 0⟩
  let moves := Step sampleService db 800 requests calls
  let share : ShareInfo := ⟨2, zeroRoot⟩
  let row : StagedRow := (calls 0).spec.staged true
  let opened : LockState := LockState.new.get 800 key
  let s₀ : System := .new empty
  let s₁ := s₀.answer ⟨empty, some empty⟩ (some 0) 0 (.staged share row)
  let s₂ := { s₁ with gate := { s₁.gate with locks := opened } }
  let s₃ := { s₂ with gate := { s₂.gate with locks := { opened with handles := [⟨key, 0, .waiting⟩] } } }
  let s₄ := { s₃ with gate := { s₃.gate.setPhase 0 .locked with
    locks := { opened with handles := [⟨key, 0, .guard⟩] } } }
  let s₅ := { s₄ with gate := s₄.gate.setPhase 0 (.resolved .discardStagedRow) }
  let s₆ := s₅.answer s₅.conn s₅.holder 0 (.signed share row zeroRoot.1)
  let committed : Tables := empty.withReserved (calls 0).spec
  let s₇ := s₆.answer ⟨committed, none⟩ none 0 (.returned (.ok ⟨zeroRoot.1, 2⟩))
  let refused : SlashingError := .slashableAttestation (.doubleVote 3)
  let s₈ := { s₇ with gate := s₇.gate.setPhase 0 (.returned (.error (.slashingBlocked refused))) }
  have hstage : (calls 0).stage db ⟨none, none⟩ s₀.conn = (.ok row, ⟨empty, some empty⟩) := by
    have hrow : ((calls 0).stage db ⟨none, none⟩ s₀.conn).1 = .ok row := by decide +kernel
    rcases (calls 0).stage_cases db ⟨none, none⟩ empty with ⟨status, heq⟩ | ⟨reservation, -, heq⟩
    · rw [show s₀.conn = ⟨empty, none⟩ from rfl, heq] at hrow
      cases hrow
    · rw [← hrow, show s₀.conn = ⟨empty, none⟩ from rfl, heq]
  have hcommit : commitSigned ⟨none, none⟩ s₆.conn row ⟨zeroRoot.1, 2⟩ = (.ok ⟨zeroRoot.1, 2⟩, ⟨committed, none⟩) :=
    rfl
  have hreserve : (reserve db committed (requests 0).spec).1 = .error refused := by decide +kernel
  have hreserve' : reserve db committed (requests 0).spec = (.error refused, committed) := by
    rcases reserve_cases db committed (requests 0).spec with ⟨e, heq⟩ | ⟨reservation, -, heq⟩
    · rw [heq] at hreserve ⊢
      cases hreserve
      rfl
    · rw [heq] at hreserve
      cases hreserve
  have h₁ : moves s₀ s₁ := by
    have hstep : moves s₀ (s₀.stage (calls 0) db ⟨none, none⟩ share 0) :=
      .stage 0 rfl rfl rfl ⟨none, none⟩
    rw [System.stage, hstage] at hstep
    exact hstep
  have h₂ : moves s₁ s₂ := .gate (.lockTraffic (.get key)) nofun
  have h₃ : moves s₂ s₃ := .gate (.lockTraffic (.wait [] [] rfl)) nofun
  have h₄ : moves s₃ s₄ := .gate (.lock 0 rfl (.acquire [] [] rfl rfl)) nofun
  have h₅ : moves s₄ s₅ := .gate (.resolve 0 rfl .discardStagedRow) nofun
  have h₆ : moves s₅ s₆ := .sign 0 rfl
  have h₇ : moves s₆ s₇ := by
    have hstep : moves s₆ (s₆.commit ⟨none, none⟩ share row zeroRoot.1 0) :=
      .commit 0 rfl ⟨none, none⟩
    rw [System.commit, hcommit] at hstep
    exact hstep
  have h₈ : moves s₇ s₈ := by
    have hstep : moves s₇ _ := .gate (.reserve 0 rfl) fun _ => rfl
    rw [show reserve db s₇.gate.tables (requests 0).spec = _ from hreserve'] at hstep
    exact hstep
  obtain ⟨hpair, hrecords⟩ := two_paths_safe (.empty none)
    ((((((((Relation.ReflTransGen.single h₁).tail h₂).tail h₃).tail h₄).tail h₅).tail h₆).tail h₇).tail h₈)
  have hreleased : Released requests calls s₈ key .inner (peerIdentityOf key SampleVote.inner) := .peer 0 rfl
  have hslashable : SlashablePair SampleVote.inner .outer := ⟨by decide, by decide⟩
  exact ⟨s₈, hreleased, hrecords _ _ _ hreleased, ⟨_, rfl⟩, fun id houter =>
    hpair _ _ _ _ id hreleased houter hslashable⟩

end Rvc.SignerServer.Dvt
