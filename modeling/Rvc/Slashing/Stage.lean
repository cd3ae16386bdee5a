import Rvc.Slashing.History

/-!
# Staging and reserving

`stage.rs` and the per-member part of `group_commit.rs`. `stageBlock` and `stageAttestation` are the check
under a held guard; `checkSpecInTxn`, `gvrMismatchOnConn` and `insertSpec` are what the group commit does to
one member, and `reserve` is those three in a transaction of their own.
-/

namespace Rvc.Slashing

open Rvc.Lib Rvc.EthTypes Rvc.Observability Tables Except

/-! ### The pinned genesis validators root -/

/-- `SlashingDb::parse_gvr_hex`: the shared parse, and all-zeros refused. -/
def parseGvrHex (s : String) : Except SlashingError Root :=
  match EthTypes.parseGvrHex s with
  | .error .doublePrefix =>
      .error (.invalidInterchangeFormat "genesis_validators_root has double 0x prefix")
  | .error (.invalidHex detail) =>
      .error (.invalidInterchangeFormat s!"genesis_validators_root is not valid hex: {detail}")
  | .error (.invalidLength expected got) =>
      .error (.invalidInterchangeFormat s!"genesis_validators_root must be exactly {expected} bytes, got {got}")
  | .ok root =>
      if root = zeroRoot then
        .error (.invalidInterchangeFormat "genesis_validators_root must not be all zeros")
      else
        .ok root

def pinnedGvr (t : Tables) : Except SlashingError (Option Root) :=
  match t.metadataGvr with
  | none => .ok none
  | some hex => do
      let root ← parseGvrHex hex
      .ok (some root)

/-- `check_gvr_before_lock`, which opens `stage_*` and `reserve_*`. -/
def checkGvrBeforeLock (t : Tables) (gvr : Root) : Except SlashingError Unit := do
  match ← pinnedGvr t with
  | some pinned => if pinned ≠ gvr then .error (.genesisRootMismatch pinned gvr) else .ok ()
  | none => .ok ()

/-! ### Staging -/

structure StagedBlock where
  pubkey : String
  slot : Nat
  signingRoot : Option String
  gvrHex : String
  isResign : Bool
  deriving DecidableEq

structure StagedAttestation where
  pubkey : String
  sourceEpoch : Nat
  targetEpoch : Nat
  signingRoot : Option String
  gvrHex : String
  isDuplicate : Bool
  deriving DecidableEq

section

variable (db : SlashingDb) (t : Tables) (pubkeyHex : String)

def stageBlock (slot : Nat) (signingRootHex : Option String) (gvr : Root) : Except SlashingError StagedBlock := do
  checkGvrBeforeLock t gvr
  let verdict ← t.checkBlock (normalizePubkey pubkeyHex) ⟨slot, signingRootHex⟩
    (db.forkAwareStrict (slot / slotsPerEpoch))
  .ok ⟨normalizePubkey pubkeyHex, slot, signingRootHex, rootToHex gvr, verdict = .resign⟩

def stageAttestation (sourceEpoch targetEpoch : Nat)
    (signingRootHex : Option String) (gvr : Root) : Except SlashingError StagedAttestation := do
  checkGvrBeforeLock t gvr
  let verdict ← t.checkAttestation (normalizePubkey pubkeyHex) ⟨sourceEpoch, targetEpoch, signingRootHex⟩
    (db.forkAwareStrict targetEpoch)
  .ok ⟨normalizePubkey pubkeyHex, sourceEpoch, targetEpoch, signingRootHex, rootToHex gvr, verdict = .duplicate⟩

end

/-! ### Reserving -/

inductive ReservationKind where
  | block (slot : Nat)
  | attestation (source target : Nat)
  deriving DecidableEq

/-- Proof that a history row is committed, and what a compensating delete needs. -/
structure CommittedReservation where
  pubkeyHex : String
  kind : ReservationKind
  signingRootHex : Option String
  inserted : Bool
  deriving DecidableEq

/-- `ReserveSpec`: the two variants differ only in what `kind` carries. -/
structure ReserveSpec where
  pubkey : String
  kind : ReservationKind
  signingRootHex : Option String
  gvr : Root
  gvrHex : String
  deriving DecidableEq

/-- The spec `reserve_block` and `reserve_attestation` enqueue. -/
def ReserveSpec.of (pubkeyHex : String) (kind : ReservationKind) (signingRootHex : Option String)
    (gvr : Root) : ReserveSpec :=
  ⟨normalizePubkey pubkeyHex, kind, signingRootHex, gvr, rootToHex gvr⟩

def ReserveSpec.reservation (spec : ReserveSpec) (inserted : Bool) : CommittedReservation :=
  ⟨spec.pubkey, spec.kind, spec.signingRootHex, inserted⟩

def checkSpecInTxn (db : SlashingDb) (t : Tables) (spec : ReserveSpec) : Except SlashingError CommittedReservation :=
  match spec.kind with
  | .block slot => do
      let verdict ← t.checkBlock spec.pubkey ⟨slot, spec.signingRootHex⟩ (db.forkAwareStrict (slot / slotsPerEpoch))
      .ok (spec.reservation (verdict ≠ .resign))
  | .attestation source target => do
      let verdict ← t.checkAttestation spec.pubkey ⟨source, target, spec.signingRootHex⟩ (db.forkAwareStrict target)
      .ok (spec.reservation (verdict ≠ .duplicate))

section

variable (t : Tables) (spec : ReserveSpec)

/-- `gvr_mismatch_on_conn`: the stored text is compared first and only parsed when it differs, for the
error. -/
def gvrMismatchOnConn : Except SlashingError Unit :=
  match t.metadataGvr with
  | none => .ok ()
  | some pinnedHex =>
      if pinnedHex = spec.gvrHex then
        .ok ()
      else do
        let expected ← parseGvrHex pinnedHex
        .error (.genesisRootMismatch expected spec.gvr)

def ReserveSpec.blockRow (spec : ReserveSpec) (slot : Nat) : BlockRow :=
  ⟨auditOrigin, spec.pubkey, asI64 slot, spec.signingRootHex, some spec.gvrHex⟩

def ReserveSpec.attestationRow (spec : ReserveSpec) (source target : Nat) : AttestationRow :=
  ⟨auditOrigin, spec.pubkey, asI64 source, asI64 target, spec.signingRootHex, some spec.gvrHex⟩

/-- `INSERT INTO blocks`, under the unique index on pubkey, genesis validators root and slot. -/
def insertBlockRow (row : BlockRow) : Except SlashingError Tables :=
  if t.blocks.any fun other => other.pubkey = row.pubkey ∧ other.slot = row.slot ∧
      other.genesisValidatorsRoot.isSome ∧ other.genesisValidatorsRoot = row.genesisValidatorsRoot then
    .error (.reserveCommitFailed "UNIQUE constraint failed: blocks.pubkey, blocks.genesis_validators_root, blocks.slot")
  else
    .ok { t with blocks := t.blocks ++ [row] }

/-- `INSERT INTO attestations`, under the unique index on pubkey, genesis validators root and target. -/
def insertAttestationRow (row : AttestationRow) : Except SlashingError Tables :=
  if t.attestations.any fun other => other.pubkey = row.pubkey ∧ other.targetEpoch = row.targetEpoch ∧
      other.genesisValidatorsRoot.isSome ∧ other.genesisValidatorsRoot = row.genesisValidatorsRoot then
    .error (.reserveCommitFailed ("UNIQUE constraint failed: attestations.pubkey, " ++
      "attestations.genesis_validators_root, attestations.target_epoch"))
  else
    .ok { t with attestations := t.attestations ++ [row] }

def insertSpec (reservation : CommittedReservation) : Except SlashingError Tables :=
  if !reservation.inserted then
    .ok t
  else
    match spec.kind with
    | .block slot => insertBlockRow t (spec.blockRow slot)
    | .attestation source target => insertAttestationRow t (spec.attestationRow source target)

end

section

variable (db : SlashingDb) (t : Tables) (spec : ReserveSpec)

/-- Check, recheck the root, insert: the tables after, when all three pass. -/
def reserveSteps : Except SlashingError (CommittedReservation × Tables) := do
  let reservation ← checkSpecInTxn db t spec
  gvrMismatchOnConn t spec
  let t' ← insertSpec t spec reservation
  .ok (reservation, t')

/-- One reserve on its own: the steps, then `COMMIT`; an error rolls back. -/
def reserve : Except SlashingError CommittedReservation × Tables :=
  match reserveSteps db t spec with
  | .ok (reservation, t') => (.ok reservation, t')
  | .error e => (.error e, t)

end

/-! ### What staging decides -/

variable {e : SlashingError}

theorem AttestationRefusal.isEip3076 {t : Tables} {pubkey : String} {candidate : AttestationCandidate}
    {strict : Bool} (h : AttestationRefusal t pubkey candidate strict e) :
    e.isEip3076 = true := by
  cases h <;> rfl

theorem BlockRefusal.isEip3076 {t : Tables} {pubkey : String} {candidate : BlockCandidate}
    {strict : Bool} (h : BlockRefusal t pubkey candidate strict e) :
    e.isEip3076 = true := by
  cases h <;> rfl

theorem parseGvrHex_error {s : String} (h : parseGvrHex s = .error e) : ∃ msg, e = .invalidInterchangeFormat msg := by
  unfold parseGvrHex at h
  split at h
  · exact ⟨_, (error.inj h).symm⟩
  · exact ⟨_, (error.inj h).symm⟩
  · exact ⟨_, (error.inj h).symm⟩
  · split at h
    · exact ⟨_, (error.inj h).symm⟩
    · cases h

theorem checkGvrBeforeLock_error {t : Tables} {gvr : Root}
    (h : checkGvrBeforeLock t gvr = .error e) : e.isEip3076 = false := by
  unfold checkGvrBeforeLock pinnedGvr at h
  cases hmeta : t.metadataGvr with
  | none => simp [hmeta, bind, Except.bind] at h
  | some hex =>
    cases hparse : parseGvrHex hex with
    | error e' =>
      obtain ⟨msg, rfl⟩ := parseGvrHex_error hparse
      obtain rfl : SlashingError.invalidInterchangeFormat msg = e := by
        simpa [hmeta, hparse, bind, Except.bind] using h
      rfl
    | ok root =>
      simp only [hmeta, hparse, bind, Except.bind] at h
      split at h
      · cases h
        rfl
      · cases h

theorem checkGvrBeforeLock_none {t : Tables} {gvr : Root} (h : t.metadataGvr = none) :
    checkGvrBeforeLock t gvr = .ok () := by
  simp [checkGvrBeforeLock, pinnedGvr, h, bind, Except.bind]

section

variable {db : SlashingDb} {t : Tables} {pubkeyHex : String} {signingRootHex : Option String} {gvr : Root}
  {e : SlashingError}

/-- A refusal of a staging comes from its check: the root's own errors are not refusals. -/
theorem check_of_staged_error {α β : Type} {check : Except SlashingError α} {staged : α → β}
    (h : (checkGvrBeforeLock t gvr >>= fun _ => check >>= fun verdict => .ok (staged verdict)) = .error e)
    (he : e.isEip3076 = true) : check = .error e := by
  cases hgvr : checkGvrBeforeLock t gvr with
  | error e' =>
    obtain rfl : e' = e := by simpa [hgvr, bind, Except.bind] using h
    rw [checkGvrBeforeLock_error hgvr] at he
    cases he
  | ok _ =>
    rw [hgvr] at h
    cases check with
    | ok v => cases h
    | error e' =>
      obtain rfl : e' = e := by simpa [bind, Except.bind] using h
      rfl

theorem stageAttestation_error {sourceEpoch targetEpoch : Nat}
    (h : stageAttestation db t pubkeyHex sourceEpoch targetEpoch signingRootHex gvr = .error e)
    (he : e.isEip3076 = true) :
    AttestationRefusal t (normalizePubkey pubkeyHex) ⟨sourceEpoch, targetEpoch, signingRootHex⟩
      (db.forkAwareStrict targetEpoch) e :=
  checkAttestation_error (check_of_staged_error h he)

theorem stageBlock_error {slot : Nat} (h : stageBlock db t pubkeyHex slot signingRootHex gvr = .error e)
    (he : e.isEip3076 = true) : BlockRefusal t (normalizePubkey pubkeyHex) ⟨slot, signingRootHex⟩
      (db.forkAwareStrict (slot / slotsPerEpoch)) e :=
  checkBlock_error (check_of_staged_error h he)

/-- A staging whose check accepts nothing fails, and by a rule if the root is right. -/
theorem staged_refused {α β : Type} {check : Except SlashingError α} {staged : α → β}
    (h : ∀ verdict, check ≠ .ok verdict) :
    ∃ e, (checkGvrBeforeLock t gvr >>= fun _ => check >>= fun verdict => .ok (staged verdict)) = .error e ∧
      (checkGvrBeforeLock t gvr = .ok () → check = .error e) := by
  cases checkGvrBeforeLock t gvr with
  | error e => exact ⟨e, rfl, nofun⟩
  | ok _ =>
    cases check with
    | error e => exact ⟨e, rfl, fun _ => rfl⟩
    | ok verdict => exact absurd rfl (h verdict)

theorem stageAttestation_refused {source target : Nat}
    (h : ∀ verdict, ¬ AttestationAccepted t (normalizePubkey pubkeyHex) ⟨source, target, signingRootHex⟩
      (db.forkAwareStrict target) verdict) :
    ∃ e, stageAttestation db t pubkeyHex source target signingRootHex gvr = .error e ∧
      (checkGvrBeforeLock t gvr = .ok () → e.isEip3076 = true) := by
  obtain ⟨e, hstage, hcheck⟩ := staged_refused fun verdict hok => h verdict (checkAttestation_ok hok)
  exact ⟨e, hstage, fun hgvr => (checkAttestation_error (hcheck hgvr)).isEip3076⟩

theorem stageBlock_refused {slot : Nat}
    (h : ∀ verdict, ¬ BlockAccepted t (normalizePubkey pubkeyHex) ⟨slot, signingRootHex⟩
      (db.forkAwareStrict (slot / slotsPerEpoch)) verdict) :
    ∃ e, stageBlock db t pubkeyHex slot signingRootHex gvr = .error e ∧
      (checkGvrBeforeLock t gvr = .ok () → e.isEip3076 = true) := by
  obtain ⟨e, hstage, hcheck⟩ := staged_refused fun verdict hok => h verdict (checkBlock_ok hok)
  exact ⟨e, hstage, fun hgvr => (checkBlock_error (hcheck hgvr)).isEip3076⟩

end

/-! ### What a reserve does -/

def Tables.withReserved (t : Tables) (spec : ReserveSpec) : Tables :=
  match spec.kind with
  | .block slot => { t with blocks := t.blocks ++ [spec.blockRow slot] }
  | .attestation source target =>
      { t with attestations := t.attestations ++ [spec.attestationRow source target] }

inductive SpecAccepted (db : SlashingDb) (t : Tables) (spec : ReserveSpec) : CommittedReservation → Prop
  | block {slot : Nat} {verdict : BlockVerdict} (hkind : spec.kind = .block slot)
      (hacc : BlockAccepted t spec.pubkey ⟨slot, spec.signingRootHex⟩
        (db.forkAwareStrict (slot / slotsPerEpoch)) verdict) :
      SpecAccepted db t spec (spec.reservation (verdict ≠ .resign))
  | attestation {source target : Nat} {verdict : AttestationVerdict} (hkind : spec.kind = .attestation source target)
      (hacc : AttestationAccepted t spec.pubkey ⟨source, target, spec.signingRootHex⟩
        (db.forkAwareStrict target) verdict) :
      SpecAccepted db t spec (spec.reservation (verdict ≠ .duplicate))

section

variable {db : SlashingDb} {t : Tables} {spec : ReserveSpec}

theorem checkSpecInTxn_cases (db : SlashingDb) (t : Tables) (spec : ReserveSpec) :
    (∃ e, checkSpecInTxn db t spec = .error e ∧ e.isEip3076 = true) ∨
      ∃ reservation, checkSpecInTxn db t spec = .ok reservation ∧
        SpecAccepted db t spec reservation := by
  unfold checkSpecInTxn
  cases hkind : spec.kind with
  | block slot =>
    cases hcheck : t.checkBlock spec.pubkey ⟨slot, spec.signingRootHex⟩ (db.forkAwareStrict (slot / slotsPerEpoch)) with
    | error e => exact .inl ⟨e, by simp [hcheck, bind, Except.bind], (checkBlock_error hcheck).isEip3076⟩
    | ok verdict => exact .inr ⟨_, by simp [hcheck, bind, Except.bind], .block hkind (checkBlock_ok hcheck)⟩
  | attestation source target =>
    cases hcheck : t.checkAttestation spec.pubkey ⟨source, target, spec.signingRootHex⟩ (db.forkAwareStrict target) with
    | error e => exact .inl ⟨e, by simp [hcheck, bind, Except.bind], (checkAttestation_error hcheck).isEip3076⟩
    | ok verdict => exact .inr ⟨_, by simp [hcheck, bind, Except.bind], .attestation hkind (checkAttestation_ok hcheck)⟩

theorem checkSpecInTxn_ok_iff {reservation : CommittedReservation} :
    checkSpecInTxn db t spec = .ok reservation ↔ SpecAccepted db t spec reservation := by
  constructor
  · intro h
    rcases checkSpecInTxn_cases db t spec with ⟨e, herror, -⟩ | ⟨reservation', hok, hacc⟩
    · cases herror.symm.trans h
    · cases hok.symm.trans h
      exact hacc
  · intro h
    unfold checkSpecInTxn
    cases h with
    | block hkind hacc => simp [hkind, checkBlock_ok_iff.mpr hacc, bind, Except.bind]
    | attestation hkind hacc => simp [hkind, checkAttestation_ok_iff.mpr hacc, bind, Except.bind]

theorem insertBlockRow_ok {row : BlockRow} (h : ∀ other ∈ t.blocks, other.pubkey = row.pubkey → other.slot ≠ row.slot) :
    insertBlockRow t row = .ok { t with blocks := t.blocks ++ [row] } := by
  refine if_neg ?_
  simp only [List.any_eq_true, decide_eq_true_eq, not_exists, not_and]
  exact fun other hother hpk hslot => absurd hslot (h other hother hpk)

theorem insertAttestationRow_ok {row : AttestationRow}
    (h : ∀ other ∈ t.attestations, other.pubkey = row.pubkey → other.targetEpoch ≠ row.targetEpoch) :
    insertAttestationRow t row = .ok { t with attestations := t.attestations ++ [row] } := by
  refine if_neg ?_
  simp only [List.any_eq_true, decide_eq_true_eq, not_exists, not_and]
  exact fun other hother hpk htarget => absurd htarget (h other hother hpk)

theorem insertSpec_of_accepted {reservation : CommittedReservation} (h : SpecAccepted db t spec reservation) :
    insertSpec t spec reservation = .ok (if reservation.inserted then t.withReserved spec else t) := by
  cases h with
  | @block slot verdict hkind hacc =>
    cases verdict with
    | resign => rfl
    | stage => simpa [insertSpec, ReserveSpec.reservation, Tables.withReserved, hkind] using insertBlockRow_ok hacc.slot
  | @attestation source target verdict hkind hacc =>
    cases verdict with
    | duplicate => rfl
    | stage => simpa [insertSpec, ReserveSpec.reservation, Tables.withReserved, hkind] using
        insertAttestationRow_ok hacc.target

/-- A reserve refuses and changes nothing, or it was accepted and its row (unless it repeats one) is
appended. -/
theorem reserve_cases (db : SlashingDb) (t : Tables) (spec : ReserveSpec) : (∃ e, reserve db t spec = (.error e, t)) ∨
      ∃ reservation, SpecAccepted db t spec reservation ∧ reserve db t spec =
          (.ok reservation, if reservation.inserted then t.withReserved spec else t) := by
  rcases checkSpecInTxn_cases db t spec with ⟨e, hcheck, -⟩ | ⟨reservation, hcheck, hacc⟩
  · exact .inl ⟨e, by simp [reserve, reserveSteps, hcheck, bind, Except.bind]⟩
  · cases hgvr : gvrMismatchOnConn t spec with
    | error e => exact .inl ⟨e, by simp [reserve, reserveSteps, hcheck, hgvr, bind, Except.bind]⟩
    | ok _ => exact .inr ⟨reservation, hacc, by
        simp [reserve, reserveSteps, hcheck, hgvr, insertSpec_of_accepted hacc, bind, Except.bind]⟩

end

end Rvc.Slashing
