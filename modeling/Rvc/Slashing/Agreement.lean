import Rvc.Slashing.GroupCommit
import Rvc.Slashing.Staged

/-!
# Two ways to a row

A message gets its row by a reserve (`reserve_block`, `reserve_attestation`: a batch of the group commit) or by a
staging and its commit (`stage_block`, `stage_attestation`). Both check the pinned genesis validators root as
bytes before the lock and run the same rules. The reserve compares the root once more inside the transaction,
and there as text: a pinned root that is spelled otherwise than `root_to_hex` spells it, bare or in capitals, is
a mismatch with itself. In every other state the two are the same function of the tables.
-/

namespace Rvc.Slashing

open Rvc.Lib Rvc.EthTypes Rvc.Observability Except Conn

/-! ### The two ways -/

section

variable (db : SlashingDb) (t : Tables) (pubkeyHex : String) (kind : ReservationKind)
  (signingRootHex : Option String) (gvr : Root)

/-- `reserve_block` and `reserve_attestation` with nobody else in the queue: the leader commits a batch of one. -/
def reserveMessage : Reply × Tables :=
  match checkGvrBeforeLock t gvr with
  | .error e => (.error e, t)
  | .ok () =>
      let result := commitBatch db ⟨none, none⟩
        [⟨.of pubkeyHex kind signingRootHex gvr, false, false, none, none, none⟩] ⟨t, none⟩
      (result.replies.head?.join.getD (.error (.reserveCommitFailed "group-commit worker disconnected before commit")),
        result.conn.committed)

def stageMessage : Except SlashingError Unit × Tables :=
  match stageRow db ⟨none, none⟩ ⟨t, none⟩ pubkeyHex kind signingRootHex gvr with
  | (.error e, c) => (.error e, c.committed)
  | (.ok row, c) =>
      match row.commit ⟨none, none⟩ c with
      | (result, c) => (result, c.committed)

end

/-! ### What they do -/

section

variable {db : SlashingDb} {t : Tables} {pubkeyHex : String} {kind : ReservationKind}
  {signingRootHex : Option String} {gvr : Root} {spec : ReserveSpec} {e : SlashingError}

theorem SlashingError.isGroupMemberRejection_of_isEip3076 (h : e.isEip3076 = true) :
    e.isGroupMemberRejection = true := by
  cases e <;> first | rfl | cases h

theorem checkGvrBeforeLock_ok_iff :
    checkGvrBeforeLock t gvr = .ok () ↔ ∀ hex, t.metadataGvr = some hex → parseGvrHex hex = .ok gvr := by
  unfold checkGvrBeforeLock pinnedGvr
  cases t.metadataGvr with
  | none => simp [bind, Except.bind]
  | some hex => cases hparse : parseGvrHex hex <;> simp [hparse, bind, Except.bind]

/-- The pinned root is `gvr`, spelled otherwise than `root_to_hex` spells it. -/
def Tables.SpellsOtherwise (t : Tables) (gvr : Root) : Prop :=
  ∃ hex, t.metadataGvr = some hex ∧ parseGvrHex hex = .ok gvr ∧ hex ≠ rootToHex gvr

/-- Past the check before the lock, the check inside finds at most the same root in another spelling. -/
theorem gvrMismatchOnConn_cases (h : checkGvrBeforeLock t gvr = .ok ()) (pubkeyHex : String)
    (kind : ReservationKind) (signingRootHex : Option String) :
    ¬ t.SpellsOtherwise gvr ∧ gvrMismatchOnConn t (.of pubkeyHex kind signingRootHex gvr) = .ok () ∨
      t.SpellsOtherwise gvr ∧ gvrMismatchOnConn t (.of pubkeyHex kind signingRootHex gvr) =
        .error (.genesisRootMismatch gvr gvr) := by
  unfold gvrMismatchOnConn
  cases hpin : t.metadataGvr with
  | none => exact .inl ⟨fun ⟨hex, hsome, _⟩ => by simp [hpin] at hsome, rfl⟩
  | some hex =>
    have hparse := checkGvrBeforeLock_ok_iff.mp h hex hpin
    by_cases hspelled : hex = rootToHex gvr
    · refine .inl ⟨fun ⟨other, hsome, _, hne⟩ => hne ?_, if_pos hspelled⟩
      rw [← hspelled, ← Option.some.inj (hsome.symm.trans hpin)]
    · refine .inr ⟨⟨hex, hpin, hparse, hspelled⟩, ?_⟩
      simp [ReserveSpec.of, hspelled, hparse, bind, Except.bind]

theorem commitBatch_single (hgvr : ∀ e, gvrMismatchOnConn t spec = .error e → e.isGroupMemberRejection = true) :
    commitBatch db ⟨none, none⟩ [⟨spec, false, false, none, none, none⟩] ⟨t, none⟩ =
      ⟨[some (reserve db t spec).1], none, ⟨(reserve db t spec).2, none⟩⟩ := by
  rcases checkSpecInTxn_cases db t spec with ⟨e, hcheck, he⟩ | ⟨reservation, hcheck, hacc⟩
  · have hmember := SlashingError.isGroupMemberRejection_of_isEip3076 he
    simp [commitBatch, withImmediateTxn, beginImmediate, commitBody, commitMembers, commitMember,
      query, view, hcheck, MemberResult.ofError, hmember, LoopResult.push, isAccepted, rollback,
      dispatchOutcomes, replyFor, reserve_of_check_error hcheck]
  · cases hmismatch : gvrMismatchOnConn t spec with
    | error e =>
      have hmember := hgvr e hmismatch
      simp [commitBatch, withImmediateTxn, beginImmediate, commitBody, commitMembers, commitMember,
        query, view, hcheck, hmismatch, MemberResult.ofError, hmember, LoopResult.push, isAccepted,
        rollback, dispatchOutcomes, replyFor, reserve_of_gvr_error hcheck hmismatch]
    | ok =>
      simp [commitBatch, withImmediateTxn, beginImmediate, commitBody, commitMembers, commitMember,
        query, view, hcheck, hmismatch, LoopResult.push, isAccepted, execute,
        insertSpec_of_accepted hacc, write, commit, dispatchOutcomes, replyFor,
        reserve_of_accepted hcheck hmismatch]

section

variable (h : checkGvrBeforeLock t gvr = .ok ())

include h

theorem reserveMessage_eq : reserveMessage db t pubkeyHex kind signingRootHex gvr =
      reserve db t (.of pubkeyHex kind signingRootHex gvr) := by
  have hmismatch : ∀ e, gvrMismatchOnConn t (.of pubkeyHex kind signingRootHex gvr) = .error e →
      e.isGroupMemberRejection = true := by
    intro e he
    rcases gvrMismatchOnConn_cases h pubkeyHex kind signingRootHex with ⟨-, hok⟩ | ⟨-, herr⟩
    · cases hok.symm.trans he
    · cases herr.symm.trans he
      rfl
  simp [reserveMessage, h, commitBatch_single hmismatch]

theorem stageTxn_eq {α : Type} (check : Tables → Except SlashingError α) : stageTxn ⟨none, none⟩ ⟨t, none⟩ gvr check =
      (check t, ⟨t, if (check t).toBool then some t else none⟩) := by
  have hview : checkGvrBeforeLock (mk t none).view gvr = .ok () := h
  cases hcheck : check t <;> simp [stageTxn, hview, withImmediateTxn, beginImmediate, query, hcheck, rollback,
      Except.toBool]

theorem stageRow_eq : stageRow db ⟨none, none⟩ ⟨t, none⟩ pubkeyHex kind signingRootHex gvr =
      match checkSpecInTxn db t (.of pubkeyHex kind signingRootHex gvr) with
      | .error e => (.error e, ⟨t, none⟩)
      | .ok reservation =>
          (.ok ((ReserveSpec.of pubkeyHex kind signingRootHex gvr).staged reservation.inserted), ⟨t, some t⟩) := by
  cases kind with
  | block slot =>
    simp only [stageRow, stageBlockTxn, stageTxn_eq h, checkSpecInTxn, ReserveSpec.of]
    cases t.checkBlock (normalizePubkey pubkeyHex) ⟨slot, signingRootHex⟩
        (db.forkAwareStrict (slot / slotsPerEpoch)) with
    | error e => rfl
    | ok verdict => cases verdict <;> rfl
  | attestation source target =>
    simp only [stageRow, stageAttestationTxn, stageTxn_eq h, checkSpecInTxn, ReserveSpec.of]
    cases t.checkAttestation (normalizePubkey pubkeyHex) ⟨source, target, signingRootHex⟩
        (db.forkAwareStrict target) with
    | error e => rfl
    | ok verdict => cases verdict <;> rfl

theorem stageMessage_eq : stageMessage db t pubkeyHex kind signingRootHex gvr =
      match checkSpecInTxn db t (.of pubkeyHex kind signingRootHex gvr) with
      | .error e => (.error e, t)
      | .ok reservation => (.ok (), t.afterReserve (.of pubkeyHex kind signingRootHex gvr) reservation) := by
  unfold stageMessage
  rw [stageRow_eq h]
  rcases checkSpecInTxn_cases db t (.of pubkeyHex kind signingRootHex gvr) with
    ⟨e, hcheck, -⟩ | ⟨reservation, hcheck, hacc⟩
  · rw [hcheck]
  · simp [hcheck, StagedRow.commit, execute, StagedRow.insert_of_accepted hacc, commit]

end

theorem reserveMessage_error (h : checkGvrBeforeLock t gvr = .error e) :
    reserveMessage db t pubkeyHex kind signingRootHex gvr = (.error e, t) := by
  simp [reserveMessage, h]

theorem stageMessage_error (h : checkGvrBeforeLock t gvr = .error e) :
    stageMessage db t pubkeyHex kind signingRootHex gvr = (.error e, t) := by
  have hview : checkGvrBeforeLock (mk t none).view gvr = .error e := h
  cases kind <;> simp [stageMessage, stageRow, stageBlockTxn, stageAttestationTxn, stageTxn, hview, Except.map]

end

/-! ### Where they agree -/

/-- Both succeed or both refuse with one error, and they leave the same tables. -/
structure Agree (reserved : Reply × Tables) (staged : Except SlashingError Unit × Tables) : Prop where
  result : reserved.1.map (fun _ => ()) = staged.1
  tables : reserved.2 = staged.2

/-- **Reserve and stage agree** except where the rules accept a message under a pinned root that is the
message's own in another spelling. There the reserve is a mismatch of the root with itself, and the staging
goes through. -/
theorem reserveMessage_agrees_iff (db : SlashingDb) (t : Tables) (pubkeyHex : String) (kind : ReservationKind)
    (signingRootHex : Option String) (gvr : Root) : Agree (reserveMessage db t pubkeyHex kind signingRootHex gvr)
        (stageMessage db t pubkeyHex kind signingRootHex gvr) ↔ ¬ (t.SpellsOtherwise gvr ∧
        ∃ reservation, checkSpecInTxn db t (.of pubkeyHex kind signingRootHex gvr) = .ok reservation) := by
  cases hgvr : checkGvrBeforeLock t gvr with
  | error e =>
    rw [reserveMessage_error hgvr, stageMessage_error hgvr]
    refine ⟨fun _ ⟨⟨hex, hpin, hparse, _⟩, _⟩ => ?_, fun _ => ⟨rfl, rfl⟩⟩
    have hok : checkGvrBeforeLock t gvr = .ok () := checkGvrBeforeLock_ok_iff.mpr fun other hother => by
      rwa [← Option.some.inj (hpin.symm.trans hother)]
    cases hok.symm.trans hgvr
  | ok =>
    rw [reserveMessage_eq hgvr, stageMessage_eq hgvr]
    rcases checkSpecInTxn_cases db t (.of pubkeyHex kind signingRootHex gvr) with
      ⟨e, hcheck, -⟩ | ⟨reservation, hcheck, -⟩
    · -- the rules come first on both ways
      rw [reserve_of_check_error hcheck, hcheck]
      exact ⟨fun _ ⟨_, _, hok⟩ => (by cases hok), fun _ => ⟨rfl, rfl⟩⟩
    · rw [hcheck]
      rcases gvrMismatchOnConn_cases hgvr pubkeyHex kind signingRootHex with ⟨hnot, hmatch⟩ | ⟨hspells, hmatch⟩
      · rw [reserve_of_accepted hcheck hmatch]
        exact ⟨fun _ hboth => hnot hboth.1, fun _ => ⟨rfl, rfl⟩⟩
      · rw [reserve_of_gvr_error hcheck hmatch]
        exact ⟨fun hagree => (by cases hagree.result), fun hboth => absurd ⟨hspells, reservation, rfl⟩ hboth⟩

def barePinned : Tables :=
  { Tables.empty with metadataGvr := some (Hex.encode (List.replicate 32 3)) }

/-- A block at slot 5 under its own chain's root: staged and committed, but refused as a reserve. -/
theorem reserve_mismatches_bare_root :
    barePinned.metadataGvr = some "0303030303030303030303030303030303030303030303030303030303030303" ∧
      (reserveMessage ⟨true, 0⟩ barePinned "0xaa" (.block 5) (some "0x01") ⟨List.replicate 32 3, rfl⟩).1 =
        .error (.genesisRootMismatch ⟨List.replicate 32 3, rfl⟩ ⟨List.replicate 32 3, rfl⟩) ∧
      (stageMessage ⟨true, 0⟩ barePinned "0xaa" (.block 5) (some "0x01") ⟨List.replicate 32 3, rfl⟩).1 =
        .ok () := by
  decide +kernel

end Rvc.Slashing
