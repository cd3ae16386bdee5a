import Rvc.Slashing.Stage

/-!
# The compensating delete

`reconcile_unsigned` of `stage.rs`: a reserved row whose message was not signed is deleted again, by its
pubkey, its slot or epochs, and its root. It never fails its caller: whatever goes wrong, the row stays.
`reconcileUnsigned_spec` is all that callers need: the row with exactly this identity is gone, or nothing
has changed.
-/

namespace Rvc.Slashing

open Rvc.Lib Rvc.Observability Conn

/-! ### Rows by identity -/

@[ext]
structure RowIdentity where
  pubkey : String
  kind : ReservationKind
  signingRoot : Option String
  deriving DecidableEq

def ReserveSpec.identity (spec : ReserveSpec) : RowIdentity := ⟨spec.pubkey, spec.kind, spec.signingRootHex⟩

def CommittedReservation.identity (reservation : CommittedReservation) : RowIdentity :=
  ⟨normalizePubkey reservation.pubkeyHex, reservation.kind, reservation.signingRootHex⟩

def BlockRow.Is (row : BlockRow) (id : RowIdentity) : Prop :=
  match id.kind with
  | .block slot => row.pubkey = id.pubkey ∧ row.slot = asI64 slot ∧ row.signingRoot = id.signingRoot
  | .attestation _ _ => False

/-- `pubkey = ? AND source_epoch = ? AND target_epoch = ? AND signing_root IS ?`. -/
def AttestationRow.Is (row : AttestationRow) (id : RowIdentity) : Prop :=
  match id.kind with
  | .block _ => False
  | .attestation source target => row.pubkey = id.pubkey ∧ row.sourceEpoch = asI64 source ∧
      row.targetEpoch = asI64 target ∧ row.signingRoot = id.signingRoot

instance (row : BlockRow) (id : RowIdentity) : Decidable (row.Is id) := by
  unfold BlockRow.Is
  split <;> infer_instance

instance (row : AttestationRow) (id : RowIdentity) : Decidable (row.Is id) := by
  unfold AttestationRow.Is
  split <;> infer_instance

theorem BlockRow.is_iff {row : BlockRow} {id : RowIdentity} :
    row.Is id ↔ ∃ slot, id.kind = .block slot ∧ row.pubkey = id.pubkey ∧ row.slot = asI64 slot ∧
      row.signingRoot = id.signingRoot := by
  unfold BlockRow.Is
  cases id.kind <;> simp

theorem AttestationRow.is_iff {row : AttestationRow} {id : RowIdentity} :
    row.Is id ↔ ∃ source target, id.kind = .attestation source target ∧ row.pubkey = id.pubkey ∧
      row.sourceEpoch = asI64 source ∧ row.targetEpoch = asI64 target ∧
      row.signingRoot = id.signingRoot := by
  unfold AttestationRow.Is
  cases id.kind <;> simp

section

variable (t : Tables) (id : RowIdentity)

/-- The tables without the rows of this identity; an identity names rows of one table only. -/
def Tables.without : Tables :=
  { t with
    blocks := t.blocks.filter fun row => ¬ row.Is id
    attestations := t.attestations.filter fun row => ¬ row.Is id }

def Tables.count : Nat :=
  t.blocks.countP (fun row => row.Is id) + t.attestations.countP fun row => row.Is id

/-! ### Reconciling -/

inductive ReconcileOutcome where
  | deleted
  | notApplicable
  | failed (error : SlashingError)
  deriving DecidableEq

def deleteReservedRow : Nat × Tables :=
  match id.kind with
  | .block _ =>
      (t.blocks.countP fun row => row.Is id, { t with blocks := t.blocks.filter fun row => ¬ row.Is id })
  | .attestation _ _ =>
      (t.attestations.countP fun row => row.Is id,
        { t with attestations := t.attestations.filter fun row => ¬ row.Is id })

end

structure ReconcileFaults where
  begin : Option String
  delete : Option Fault
  commit : Option Fault

def reconcileDeleteTxn (faults : ReconcileFaults) (reservation : CommittedReservation) (c : Conn Tables) :
    Except SlashingError Bool × Conn Tables :=
  match faults.delete with
  | some fault => (.error (.reconcileFailed fault.message), c.fail fault)
  | none =>
      let (changes, t) := deleteReservedRow c.view reservation.identity
      let c := c.write t
      if 1 < changes then
        (.error (.reconcileFailed s!"targeted delete affected {changes} rows (cap is 1)"), c)
      else
        match c.commit faults.commit with
        | (.error message, c) => (.error (.reconcileFailed message), c)
        | (.ok (), c) => (.ok (changes = 1), c)

def reconcileUnsigned (faults : ReconcileFaults) (c : Conn Tables) (reservation : CommittedReservation) :
    ReconcileOutcome × Conn Tables :=
  if !reservation.inserted then
    (.notApplicable, c)
  else
    match c.withImmediateTxn .databaseError faults.begin (reconcileDeleteTxn faults reservation) with
    | (.ok true, c) => (.deleted, c)
    | (.ok false, c) => (.notApplicable, c)
    | (.error e, c) => (.failed e, c)

/-! ### What it does -/

section

variable {t : Tables} {id : RowIdentity}

theorem deleteReservedRow_eq (t : Tables) (id : RowIdentity) : deleteReservedRow t id = (t.count id, t.without id) := by
  unfold deleteReservedRow Tables.count Tables.without
  cases hkind : id.kind with
  | block slot =>
    have hnone : ∀ row ∈ t.attestations, ¬ row.Is id := fun row _ => by simp [AttestationRow.Is, hkind]
    have hcount : (t.attestations.countP fun row => row.Is id) = 0 := by simpa using hnone
    have hkeep : (t.attestations.filter fun row => ¬ row.Is id) = t.attestations := by simpa using hnone
    rw [hcount, hkeep, Nat.add_zero]
  | attestation source target =>
    have hnone : ∀ row ∈ t.blocks, ¬ row.Is id := fun row _ => by simp [BlockRow.Is, hkind]
    have hcount : (t.blocks.countP fun row => row.Is id) = 0 := by simpa using hnone
    have hkeep : (t.blocks.filter fun row => ¬ row.Is id) = t.blocks := by simpa using hnone
    rw [hcount, hkeep, Nat.zero_add]

theorem without_eq_of_count (h : t.count id = 0) : t.without id = t := by
  obtain ⟨hblocks, hattestations⟩ := Nat.add_eq_zero_iff.mp h
  have hb : (t.blocks.filter fun row => ¬ row.Is id) = t.blocks := by simpa using hblocks
  have ha : (t.attestations.filter fun row => ¬ row.Is id) = t.attestations := by simpa using hattestations
  rw [Tables.without, hb, ha]

/-- How a reconcile ends: the one row is deleted, or the tables are as before. -/
inductive Reconciled (t : Tables) (reservation : CommittedReservation) :
    ReconcileOutcome × Conn Tables → Prop
  | deleted (hinserted : reservation.inserted = true) (hone : t.count reservation.identity = 1) :
      Reconciled t reservation (.deleted, ⟨t.without reservation.identity, none⟩)
  | kept {outcome : ReconcileOutcome} (h : outcome ≠ .deleted) : Reconciled t reservation (outcome, ⟨t, none⟩)

theorem reconcileDeleteTxn_cases (faults : ReconcileFaults) (reservation : CommittedReservation) (t : Tables) :
    (t.count reservation.identity ≤ 1 ∧ reconcileDeleteTxn faults reservation ⟨t, some t⟩ =
        (.ok (t.count reservation.identity = 1), ⟨t.without reservation.identity, none⟩)) ∨
      ∃ e c, reconcileDeleteTxn faults reservation ⟨t, some t⟩ = (.error e, c) ∧ c.committed = t := by
  unfold reconcileDeleteTxn
  cases faults.delete with
  | some fault => exact .inr ⟨_, _, rfl, fail_committed _ _⟩
  | none =>
    simp only [view_mk_some, deleteReservedRow_eq, write_mk_some]
    by_cases hmany : 1 < t.count reservation.identity
    · rw [if_pos hmany]
      exact .inr ⟨_, _, rfl, rfl⟩
    · rw [if_neg hmany]
      rcases commit_cases t (t.without reservation.identity) faults.commit with h | ⟨message, c, h, hc⟩
      · exact .inl ⟨Nat.not_lt.mp hmany, by rw [h]⟩
      · exact .inr ⟨.reconcileFailed message, c, by rw [h], hc⟩

/-- **A reconcile deletes the reserved row or changes nothing**, watermarks included. -/
theorem reconcileUnsigned_spec (faults : ReconcileFaults) (t : Tables) (reservation : CommittedReservation) :
    Reconciled t reservation (reconcileUnsigned faults ⟨t, none⟩ reservation) := by
  unfold reconcileUnsigned
  cases hinserted : reservation.inserted with
  | false => exact .kept nofun
  | true =>
    have hbody := reconcileDeleteTxn_cases faults reservation t
    rcases withImmediateTxn_cases SlashingError.databaseError (c := ⟨t, none⟩) rfl faults.begin
      (reconcileDeleteTxn faults reservation) with ⟨message, h⟩ | ⟨deleted, c, hrun, h⟩ | ⟨e, c, hrun, h⟩
    · rw [h]
      exact .kept nofun
    · rw [h]
      rcases hbody with ⟨hle, hok⟩ | ⟨e, c', herr, -⟩
      · obtain ⟨hd, rfl⟩ := Prod.mk.inj (hrun.symm.trans hok)
        obtain rfl := Except.ok.inj hd
        by_cases hone : t.count reservation.identity = 1
        · simpa [hone] using Reconciled.deleted hinserted hone
        · have hnone : t.count reservation.identity = 0 := by omega
          have hkept : Reconciled t reservation (.notApplicable, ⟨t, none⟩) := .kept nofun
          rw [without_eq_of_count hnone]
          simpa [hone] using hkept
      · cases (Prod.mk.inj (hrun.symm.trans herr)).1
    · rw [h]
      rcases hbody with ⟨-, hok⟩ | ⟨e', c', herr, hc⟩
      · cases (Prod.mk.inj (hrun.symm.trans hok)).1
      · obtain ⟨-, rfl⟩ := Prod.mk.inj (hrun.symm.trans herr)
        rw [eq_of_rollback hc]
        exact .kept nofun

end

end Rvc.Slashing
