import Rvc.Slashing.Protection

/-!
# Staged rows

`stage_block`, `stage_attestation`, `commit` and `discard` of `stage.rs` as statements on the connection. A
staged row holds the connection: its transaction is open, and nothing else reaches the tables until it is
committed or dropped. So the check still stands when the row is inserted (`StagedRow.commit_cases`), and a
staged row that is committed leaves the tables a reserve would leave.
-/

namespace Rvc.Slashing

open Rvc.Lib Rvc.EthTypes Rvc.Observability Tables Conn

/-! ### Stage -/

structure StageFaults where
  begin : Option String
  check : Option Fault

/-- What both stagings do: the root is checked without the lock, and the transaction stays open when the check
of the rules passes. -/
def stageTxn {α : Type} (faults : StageFaults) (c : Conn Tables) (gvr : Root)
    (check : Tables → Except SlashingError α) : Except SlashingError α × Conn Tables :=
  match checkGvrBeforeLock c.view gvr with
  | .error e => (.error e, c)
  | .ok () =>
      c.withImmediateTxn .databaseError faults.begin fun c => c.query .databaseError faults.check check

section

variable (db : SlashingDb) (faults : StageFaults) (c : Conn Tables) (pubkeyHex : String)

def stageBlockTxn (slot : Nat) (signingRootHex : Option String) (gvr : Root) :
    Except SlashingError StagedBlock × Conn Tables :=
  stageTxn faults c gvr fun t => do
    let verdict ← t.checkBlock (normalizePubkey pubkeyHex) ⟨slot, signingRootHex⟩
      (db.forkAwareStrict (slot / slotsPerEpoch))
    .ok ⟨normalizePubkey pubkeyHex, slot, signingRootHex, rootToHex gvr, verdict = .resign⟩

def stageAttestationTxn (sourceEpoch targetEpoch : Nat) (signingRootHex : Option String) (gvr : Root) :
    Except SlashingError StagedAttestation × Conn Tables :=
  stageTxn faults c gvr fun t => do
    let verdict ← t.checkAttestation (normalizePubkey pubkeyHex) ⟨sourceEpoch, targetEpoch, signingRootHex⟩
      (db.forkAwareStrict targetEpoch)
    .ok ⟨normalizePubkey pubkeyHex, sourceEpoch, targetEpoch, signingRootHex, rootToHex gvr, verdict = .duplicate⟩

inductive StagedRow where
  | block (row : StagedBlock)
  | attestation (row : StagedAttestation)
  deriving DecidableEq

def stageRow (kind : ReservationKind) (signingRootHex : Option String) (gvr : Root) :
    Except SlashingError StagedRow × Conn Tables :=
  match kind with
  | .block slot =>
      let (staged, c) := stageBlockTxn db faults c pubkeyHex slot signingRootHex gvr
      (staged.map .block, c)
  | .attestation source target =>
      let (staged, c) := stageAttestationTxn db faults c pubkeyHex source target signingRootHex gvr
      (staged.map .attestation, c)

end

/-! ### Commit and discard -/

structure CommitFaults where
  insert : Option Fault
  commit : Option Fault

/-- A violated index is an error of the database here; the group commit has an error of its own for it. -/
def asDatabaseError : SlashingError → SlashingError
  | .reserveCommitFailed message => .databaseError message
  | e => e

/-- The insert of a commit; it is skipped for a row that exists. -/
def StagedRow.insert (t : Tables) : StagedRow → Except SlashingError Tables
  | .block row =>
      if row.isResign then .ok t
      else (insertBlockRow t ⟨auditOrigin, row.pubkey, asI64 row.slot, row.signingRoot,
        some row.gvrHex⟩).mapError asDatabaseError
  | .attestation row =>
      if row.isDuplicate then .ok t
      else (insertAttestationRow t ⟨auditOrigin, row.pubkey, asI64 row.sourceEpoch, asI64 row.targetEpoch,
        row.signingRoot, some row.gvrHex⟩).mapError asDatabaseError

/-- `commit`; the guard it consumes rolls back when it returns early. -/
def StagedRow.commit (faults : CommitFaults) (c : Conn Tables) (row : StagedRow) :
    Except SlashingError Unit × Conn Tables :=
  match c.execute .databaseError faults.insert row.insert with
  | (.error e, c) => (.error e, c.rollback.2)
  | (.ok (), c) =>
      match c.commit faults.commit with
      | (.error message, c) => (.error (.databaseError message), c.rollback.2)
      | (.ok (), c) => (.ok (), c)

def discardStaged (c : Conn Tables) : Conn Tables := c.rollback.2

/-! ### What they do -/

def ReserveSpec.staged (spec : ReserveSpec) (inserted : Bool) : StagedRow :=
  match spec.kind with
  | .block slot => .block ⟨spec.pubkey, slot, spec.signingRootHex, spec.gvrHex, !inserted⟩
  | .attestation source target =>
      .attestation ⟨spec.pubkey, source, target, spec.signingRootHex, spec.gvrHex, !inserted⟩

section

variable {db : SlashingDb} {t : Tables} {spec : ReserveSpec} {reservation : CommittedReservation}

/-- A staging that fails, for whatever reason, is rolled back; one that passes keeps its transaction. -/
theorem stageTxn_cases {α : Type} (faults : StageFaults) (t : Tables) (gvr : Root)
    (check : Tables → Except SlashingError α) : (∃ e, stageTxn faults ⟨t, none⟩ gvr check = (.error e, ⟨t, none⟩)) ∨
      ∃ a, check t = .ok a ∧ stageTxn faults ⟨t, none⟩ gvr check = (.ok a, ⟨t, some t⟩) := by
  unfold stageTxn
  cases checkGvrBeforeLock (mk t none).view gvr with
  | error e => exact .inl ⟨e, rfl⟩
  | ok _ =>
    generalize faults.check = fault
    rcases withImmediateTxn_cases SlashingError.databaseError (c := ⟨t, none⟩) rfl faults.begin
        (fun c => c.query .databaseError fault check) with
      ⟨message, heq⟩ | ⟨a, c, hbody, heq⟩ | ⟨e, c, hbody, heq⟩
    · exact .inl ⟨_, heq⟩
    · cases fault with
      | some fault => cases (Prod.mk.inj hbody).1
      | none =>
        obtain ⟨hcheck, rfl⟩ := Prod.mk.inj hbody
        exact .inr ⟨a, hcheck, heq⟩
    · refine .inl ⟨e, heq.trans ?_⟩
      rw [eq_of_rollback]
      rw [← (Prod.mk.inj hbody).2]
      cases fault with
      | some fault => exact fail_committed _ _
      | none => rfl

theorem stageRow_cases (db : SlashingDb) (faults : StageFaults) (t : Tables) (pubkeyHex : String)
    (kind : ReservationKind) (signingRootHex : Option String) (gvr : Root) :
    (∃ e, stageRow db faults ⟨t, none⟩ pubkeyHex kind signingRootHex gvr = (.error e, ⟨t, none⟩)) ∨
      ∃ reservation, SpecAccepted db t (.of pubkeyHex kind signingRootHex gvr) reservation ∧
        stageRow db faults ⟨t, none⟩ pubkeyHex kind signingRootHex gvr =
          (.ok ((ReserveSpec.of pubkeyHex kind signingRootHex gvr).staged reservation.inserted), ⟨t, some t⟩) := by
  cases kind with
  | block slot =>
    rcases stageTxn_cases faults t gvr (fun t => do
        let verdict ← t.checkBlock (normalizePubkey pubkeyHex) ⟨slot, signingRootHex⟩
          (db.forkAwareStrict (slot / slotsPerEpoch))
        .ok ⟨normalizePubkey pubkeyHex, slot, signingRootHex, rootToHex gvr, verdict = .resign⟩ :
        Tables → Except SlashingError StagedBlock) with ⟨e, heq⟩ | ⟨staged, hcheck, heq⟩
    · exact .inl ⟨e, by simp only [stageRow, stageBlockTxn, heq]; rfl⟩
    · obtain ⟨verdict, hverdict, hstaged⟩ := bind_eq_ok.mp hcheck
      cases hstaged
      refine .inr ⟨_, .block rfl (checkBlock_ok hverdict), ?_⟩
      simp only [stageRow, stageBlockTxn, heq]
      cases verdict <;> rfl
  | attestation source target =>
    rcases stageTxn_cases faults t gvr (fun t => do
        let verdict ← t.checkAttestation (normalizePubkey pubkeyHex) ⟨source, target, signingRootHex⟩
          (db.forkAwareStrict target)
        .ok ⟨normalizePubkey pubkeyHex, source, target, signingRootHex, rootToHex gvr, verdict = .duplicate⟩ :
        Tables → Except SlashingError StagedAttestation) with ⟨e, heq⟩ | ⟨staged, hcheck, heq⟩
    · exact .inl ⟨e, by simp only [stageRow, stageAttestationTxn, heq]; rfl⟩
    · obtain ⟨verdict, hverdict, hstaged⟩ := bind_eq_ok.mp hcheck
      cases hstaged
      refine .inr ⟨_, .attestation rfl (checkAttestation_ok hverdict), ?_⟩
      simp only [stageRow, stageAttestationTxn, heq]
      cases verdict <;> rfl

open ReserveSpec

open StagedRow

theorem StagedRow.insert_of_accepted (h : SpecAccepted db t spec reservation) :
    (spec.staged reservation.inserted).insert t = .ok (t.afterReserve spec reservation) := by
  cases h with
  | @block slot verdict hkind hacc =>
    cases verdict with
    | resign => simp [staged, hkind, insert, reservation, afterReserve]
    | stage =>
      have hinsert := @insertBlockRow_ok t (spec.blockRow slot) hacc.slot
      simp only [blockRow] at hinsert
      simp [staged, hkind, insert, reservation, afterReserve, withReserved, blockRow, hinsert, Except.mapError]
  | @attestation source target verdict hkind hacc =>
    cases verdict with
    | duplicate =>
      simp [staged, hkind, insert, reservation, afterReserve]
    | stage =>
      have hinsert := @insertAttestationRow_ok t (spec.attestationRow source target) hacc.target
      simp only [attestationRow] at hinsert
      simp [staged, hkind, insert, reservation, afterReserve, withReserved, attestationRow, hinsert, Except.mapError]

/-- **What a commit does** to tables that are as they were when the row was staged: they are those after a
reserve, or those before. -/
theorem StagedRow.commit_cases (h : SpecAccepted db t spec reservation) (faults : CommitFaults) :
    (spec.staged reservation.inserted).commit faults ⟨t, some t⟩ = (.ok (), ⟨t.afterReserve spec reservation, none⟩) ∨
      ∃ e, (spec.staged reservation.inserted).commit faults ⟨t, some t⟩ = (.error e, ⟨t, none⟩) := by
  unfold commit
  cases hfault : faults.insert with
  | some fault =>
    refine .inr ⟨.databaseError fault.message, ?_⟩
    show (_, ((Conn.mk t (some t)).fail fault).rollback.2) = _
    rw [Conn.eq_of_rollback (Conn.fail_committed _ _)]
  | none =>
    rw [Conn.execute_txn _ _ (insert_of_accepted h)]
    rcases Conn.commit_cases t (t.afterReserve spec reservation) faults.commit with
      heq | ⟨message, c, heq, hc⟩
    · left
      simp only [heq]
    · refine .inr ⟨.databaseError message, ?_⟩
      simp only [heq, Conn.eq_of_rollback hc]

end

end Rvc.Slashing
