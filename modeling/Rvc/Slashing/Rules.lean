import Rvc.Slashing.Types

/-!
# The EIP-3076 rules

`checkBlock` and `checkAttestation` of `rules.rs`, over the history-query seam. Everything later
proofs know about them is in the two outcome relations: `BlockOutcome` and `AttestationOutcome` list
every exit of a check with all the guards passed on the way, and `checkBlock_outcome`,
`checkAttestation_outcome` say that a check takes one of them.
-/

namespace Rvc.Slashing

/-! ### The seam -/

structure ExistingAtt where
  sourceEpoch : Nat
  targetEpoch : Nat
  signingRoot : Option String
  deriving DecidableEq

structure AttestationHistory where
  conflictingAtTarget : Nat → Except SlashingError (Option ExistingAtt)
  surroundingExists : Nat → Nat → Except SlashingError (Option (Nat × Nat))
  surroundedExists : Nat → Nat → Except SlashingError (Option (Nat × Nat))
  minTarget : Except SlashingError (Option Nat)

/-- The query surface for block history. The outer option is the row, the inner one its root. -/
structure BlockHistory where
  signingRootAtSlot : Nat → Except SlashingError (Option (Option String))
  minSlot : Except SlashingError (Option Nat)

structure BlockCandidate where
  slot : Nat
  signingRoot : Option String
  deriving DecidableEq

structure AttestationCandidate where
  sourceEpoch : Nat
  targetEpoch : Nat
  signingRoot : Option String
  deriving DecidableEq

structure BlockWatermarks where
  block : Option Nat
  deriving DecidableEq

structure AttestationWatermarks where
  source : Option Nat
  target : Option Nat
  deriving DecidableEq

inductive BlockVerdict where
  | stage
  | resign
  deriving DecidableEq

inductive AttestationVerdict where
  | stage
  | duplicate
  deriving DecidableEq

/-! ### The checks -/

/-- Whether a stored root and a new one are one message: equal roots, or two missing ones when the
lenient arm is open. -/
def isResign (existing new : Option String) (strict : Bool) : Bool :=
  match existing, new with
  | some er, some nr => er == nr
  | none, none => !strict
  | _, _ => false

section

variable (pubkey : String)

/-- The watermark floor of `check_block`; equality is blocked too. -/
def checkBlockFloor (watermarks : BlockWatermarks) (candidate : BlockCandidate) : Except SlashingError Unit :=
  match watermarks.block with
  | some wm =>
      if candidate.slot ≤ wm then .error (.belowBlockWatermark pubkey candidate.slot wm) else .ok ()
  | none => .ok ()

def checkBlock (history : BlockHistory) (watermarks : BlockWatermarks)
    (candidate : BlockCandidate) (strict : Bool) : Except SlashingError BlockVerdict := do
  checkBlockFloor pubkey watermarks candidate
  match ← history.signingRootAtSlot candidate.slot with
  | some existingRoot =>
      if isResign existingRoot candidate.signingRoot strict then
        .ok .resign
      else
        .error (.slashableBlock (.doubleBlockProposal candidate.slot))
  | none =>
      match ← history.minSlot with
      | some min =>
          if candidate.slot < min then
            .error (.slashableBlock (.slotBelowMinimum candidate.slot min))
          else
            .ok .stage
      | none => .ok .stage

/-- The source floor of `check_attestation`: strictly below is blocked. -/
def checkSourceFloor (watermarks : AttestationWatermarks)
    (candidate : AttestationCandidate) : Except SlashingError Unit :=
  match watermarks.source with
  | some ws =>
      if candidate.sourceEpoch < ws then
        .error (.belowAttestationSourceWatermark pubkey candidate.sourceEpoch ws)
      else
        .ok ()
  | none => .ok ()

/-- The target floor of `check_attestation`: equality is blocked too. -/
def checkTargetFloor (watermarks : AttestationWatermarks)
    (candidate : AttestationCandidate) : Except SlashingError Unit :=
  match watermarks.target with
  | some wt =>
      if candidate.targetEpoch ≤ wt then
        .error (.belowAttestationWatermark pubkey candidate.targetEpoch wt)
      else
        .ok ()
  | none => .ok ()

end

/-- The row at the candidate's target: a double vote, or whether the candidate repeats it. A repeat
with another source epoch is only logged. -/
def checkTargetRow (existing : Option ExistingAtt) (candidate : AttestationCandidate) (strict : Bool) :
    Except SlashingError Bool :=
  match existing with
  | some existing =>
      if isResign existing.signingRoot candidate.signingRoot strict then
        .ok true
      else
        .error (.slashableAttestation (.doubleVote candidate.targetEpoch))
  | none => .ok false

def rejectSurrounding (candidate : AttestationCandidate) : Option (Nat × Nat) → Except SlashingError Unit
  | some (existingSource, existingTarget) =>
      .error (.slashableAttestation (.surroundingVote candidate.sourceEpoch candidate.targetEpoch
        existingSource existingTarget))
  | none => .ok ()

def rejectSurrounded (candidate : AttestationCandidate) : Option (Nat × Nat) → Except SlashingError Unit
  | some (existingSource, existingTarget) =>
      .error (.slashableAttestation (.surroundedVote candidate.sourceEpoch candidate.targetEpoch
        existingSource existingTarget))
  | none => .ok ()

/-- `check_attestation`. A repeat still has to pass both surround rules, only not the minimum. -/
def checkAttestation (pubkey : String) (history : AttestationHistory)
    (watermarks : AttestationWatermarks) (candidate : AttestationCandidate) (strict : Bool) :
    Except SlashingError AttestationVerdict := do
  checkSourceFloor pubkey watermarks candidate
  checkTargetFloor pubkey watermarks candidate
  let isDuplicate ← checkTargetRow (← history.conflictingAtTarget candidate.targetEpoch) candidate strict
  rejectSurrounding candidate (← history.surroundingExists candidate.sourceEpoch candidate.targetEpoch)
  rejectSurrounded candidate (← history.surroundedExists candidate.sourceEpoch candidate.targetEpoch)
  if isDuplicate then
    .ok .duplicate
  else
    match ← history.minTarget with
    | some min =>
        if candidate.targetEpoch < min then
          .error (.slashableAttestation (.targetEpochBelowMinimum candidate.targetEpoch min))
        else
          .ok .stage
    | none => .ok .stage

/-! ### Every exit of a check -/

def BlockWatermarks.Admits (watermarks : BlockWatermarks) (slot : Nat) : Prop :=
  ∀ wm, watermarks.block = some wm → wm < slot

def AttestationWatermarks.Admits (watermarks : AttestationWatermarks) (candidate : AttestationCandidate) : Prop :=
  (∀ ws, watermarks.source = some ws → ws ≤ candidate.sourceEpoch) ∧
    ∀ wt, watermarks.target = some wt → wt < candidate.targetEpoch

section

variable (pubkey : String) (existing : Option (Option String)) (minSlot : Option Nat)
  (watermarks : BlockWatermarks) (candidate : BlockCandidate) (strict : Bool)

/-- The exits of `checkBlock`, given the history's two answers. -/
inductive BlockOutcome :
    Except SlashingError BlockVerdict → Prop
  | belowWatermark {wm : Nat} (hwm : watermarks.block = some wm) (hle : candidate.slot ≤ wm) : BlockOutcome
        (.error (.belowBlockWatermark pubkey candidate.slot wm))
  | doubleProposal {root : Option String} (hfloor : watermarks.Admits candidate.slot)
      (hrow : existing = some root) (hne : isResign root candidate.signingRoot strict = false) : BlockOutcome
        (.error (.slashableBlock (.doubleBlockProposal candidate.slot)))
  | resign {root : Option String} (hfloor : watermarks.Admits candidate.slot)
      (hrow : existing = some root) (heq : isResign root candidate.signingRoot strict = true) :
      BlockOutcome (.ok .resign)
  | belowMinimum {min : Nat} (hfloor : watermarks.Admits candidate.slot) (hrow : existing = none)
      (hmin : minSlot = some min) (hlt : candidate.slot < min) : BlockOutcome
        (.error (.slashableBlock (.slotBelowMinimum candidate.slot min)))
  | stage (hfloor : watermarks.Admits candidate.slot) (hrow : existing = none)
      (hmin : ∀ min, minSlot = some min → min ≤ candidate.slot) : BlockOutcome (.ok .stage)

end

variable {pubkey : String}

theorem checkBlockFloor_ok {watermarks : BlockWatermarks} {candidate : BlockCandidate}
    (h : watermarks.Admits candidate.slot) : checkBlockFloor pubkey watermarks candidate = .ok () := by
  unfold checkBlockFloor
  cases hwm : watermarks.block with
  | none => rfl
  | some wm => exact if_neg (Nat.not_le.mpr (h wm hwm))

open BlockOutcome

theorem checkBlock_outcome {history : BlockHistory} {watermarks : BlockWatermarks}
    {candidate : BlockCandidate} {strict : Bool} {existing : Option (Option String)}
    {minSlot : Option Nat} (hexisting : history.signingRootAtSlot candidate.slot = .ok existing)
    (hminSlot : history.minSlot = .ok minSlot) : BlockOutcome pubkey existing minSlot watermarks candidate strict
      (checkBlock pubkey history watermarks candidate strict) := by
  unfold checkBlock
  by_cases hfloor : watermarks.Admits candidate.slot
  · rw [checkBlockFloor_ok hfloor, hexisting, hminSlot]
    cases hrow : existing with
    | some root =>
      cases hres : isResign root candidate.signingRoot strict with
      | true => simpa [bind, Except.bind, hres] using resign hfloor rfl hres
      | false => simpa [bind, Except.bind, hres] using doubleProposal hfloor rfl hres
    | none =>
      cases hmin : minSlot with
      | none => exact .stage hfloor rfl (by simp)
      | some min =>
        by_cases hlt : candidate.slot < min
        · simpa [bind, Except.bind, hlt] using belowMinimum hfloor rfl rfl hlt
        · have hmin' : ∀ m, some min = some m → m ≤ candidate.slot := by
            intro m hm
            cases hm
            omega
          simpa [bind, Except.bind, hlt] using stage hfloor rfl hmin'
  · simp only [BlockWatermarks.Admits, not_forall, Nat.not_lt] at hfloor
    obtain ⟨wm, hwm, hle⟩ := hfloor
    simpa [checkBlockFloor, hwm, hle, bind, Except.bind] using belowWatermark hwm hle

section

variable (pubkey : String) (existing : Option ExistingAtt) (surrounding surrounded : Option (Nat × Nat))
  (minTarget : Option Nat) (watermarks : AttestationWatermarks) (candidate : AttestationCandidate)
  (strict : Bool)

/-- The exits of `checkAttestation`, given the history's four answers. -/
inductive AttestationOutcome : Except SlashingError AttestationVerdict → Prop
  | belowSource {ws : Nat} (hwm : watermarks.source = some ws) (hlt : candidate.sourceEpoch < ws) :
      AttestationOutcome (.error (.belowAttestationSourceWatermark pubkey candidate.sourceEpoch ws))
  | belowTarget {wt : Nat} (hwm : watermarks.target = some wt) (hle : candidate.targetEpoch ≤ wt) :
      AttestationOutcome (.error (.belowAttestationWatermark pubkey candidate.targetEpoch wt))
  | doubleVote {row : ExistingAtt} (hfloor : watermarks.Admits candidate) (hrow : existing = some row)
      (hne : isResign row.signingRoot candidate.signingRoot strict = false) : AttestationOutcome
        (.error (.slashableAttestation (.doubleVote candidate.targetEpoch)))
  | surrounding {vote : Nat × Nat} (hfloor : watermarks.Admits candidate)
      (hsurrounding : surrounding = some vote) : AttestationOutcome (.error (.slashableAttestation
          (.surroundingVote candidate.sourceEpoch candidate.targetEpoch vote.1 vote.2)))
  | surrounded {vote : Nat × Nat} (hfloor : watermarks.Admits candidate)
      (hsurrounding : surrounding = none) (hsurrounded : surrounded = some vote) : AttestationOutcome
        (.error (.slashableAttestation (.surroundedVote candidate.sourceEpoch candidate.targetEpoch vote.1 vote.2)))
  | duplicate {row : ExistingAtt} (hfloor : watermarks.Admits candidate) (hrow : existing = some row)
      (heq : isResign row.signingRoot candidate.signingRoot strict = true)
      (hsurrounding : surrounding = none) (hsurrounded : surrounded = none) : AttestationOutcome (.ok .duplicate)
  | belowMinimum {min : Nat} (hfloor : watermarks.Admits candidate) (hrow : existing = none)
      (hsurrounding : surrounding = none) (hsurrounded : surrounded = none)
      (hmin : minTarget = some min) (hlt : candidate.targetEpoch < min) : AttestationOutcome
        (.error (.slashableAttestation (.targetEpochBelowMinimum candidate.targetEpoch min)))
  | stage (hfloor : watermarks.Admits candidate) (hrow : existing = none)
      (hsurrounding : surrounding = none) (hsurrounded : surrounded = none)
      (hmin : ∀ min, minTarget = some min → min ≤ candidate.targetEpoch) : AttestationOutcome (.ok .stage)

end

variable {watermarks : AttestationWatermarks} {candidate : AttestationCandidate}

theorem checkSourceFloor_ok (h : ∀ ws, watermarks.source = some ws → ws ≤ candidate.sourceEpoch) :
    checkSourceFloor pubkey watermarks candidate = .ok () := by
  unfold checkSourceFloor
  cases hws : watermarks.source with
  | none => rfl
  | some ws => exact if_neg (Nat.not_lt.mpr (h ws hws))

theorem checkTargetFloor_ok (h : ∀ wt, watermarks.target = some wt → wt < candidate.targetEpoch) :
    checkTargetFloor pubkey watermarks candidate = .ok () := by
  unfold checkTargetFloor
  cases hwt : watermarks.target with
  | none => rfl
  | some wt => exact if_neg (Nat.not_le.mpr (h wt hwt))

open AttestationOutcome

theorem checkAttestation_outcome {history : AttestationHistory} {strict : Bool}
    {existing : Option ExistingAtt} {surrounding surrounded : Option (Nat × Nat)} {minTarget : Option Nat}
    (hexisting : history.conflictingAtTarget candidate.targetEpoch = .ok existing) (hsurrounding :
      history.surroundingExists candidate.sourceEpoch candidate.targetEpoch = .ok surrounding) (hsurrounded :
      history.surroundedExists candidate.sourceEpoch candidate.targetEpoch = .ok surrounded)
    (hminTarget : history.minTarget = .ok minTarget) :
    AttestationOutcome pubkey existing surrounding surrounded minTarget watermarks candidate strict
      (checkAttestation pubkey history watermarks candidate strict) := by
  unfold checkAttestation
  by_cases hsource : ∀ ws, watermarks.source = some ws → ws ≤ candidate.sourceEpoch
  case neg =>
    simp only [not_forall, Nat.not_le] at hsource
    obtain ⟨ws, hwm, hlt⟩ := hsource
    simpa [checkSourceFloor, hwm, hlt, bind, Except.bind] using belowSource hwm hlt
  by_cases htarget : ∀ wt, watermarks.target = some wt → wt < candidate.targetEpoch
  case neg =>
    simp only [not_forall, Nat.not_lt] at htarget
    obtain ⟨wt, hwm, hle⟩ := htarget
    simpa [checkSourceFloor_ok hsource, checkTargetFloor, hwm, hle, bind, Except.bind] using belowTarget hwm hle
  have hfloor : watermarks.Admits candidate := ⟨hsource, htarget⟩
  rw [checkSourceFloor_ok hsource, checkTargetFloor_ok htarget, hexisting, hsurrounding, hsurrounded, hminTarget]
  by_cases hdouble : ∃ row, existing = some row ∧
      isResign row.signingRoot candidate.signingRoot strict = false
  case pos =>
    obtain ⟨row, rfl, hne⟩ := hdouble
    simpa [checkTargetRow, hne, bind, Except.bind] using doubleVote hfloor rfl hne
  have hresign : ∀ row, existing = some row →
      isResign row.signingRoot candidate.signingRoot strict = true := by
    intro row hrow
    by_contra hne
    exact hdouble ⟨row, hrow, by simpa using hne⟩
  -- with no double vote the flag only says whether there is a row at the target
  have hflag : checkTargetRow existing candidate strict = .ok existing.isSome := by
    cases existing with
    | none => rfl
    | some row => simp [checkTargetRow, hresign row rfl]
  simp only [bind, Except.bind, hflag]
  cases surrounding with
  | some vote => exact .surrounding hfloor rfl
  | none =>
  cases surrounded with
  | some vote => exact .surrounded hfloor rfl rfl
  | none =>
  cases existing with
  | some row => exact .duplicate hfloor rfl (hresign row rfl) rfl rfl
  | none =>
  cases minTarget with
  | none => exact .stage hfloor rfl rfl rfl (by simp)
  | some min =>
    by_cases hlt : candidate.targetEpoch < min
    · simpa [rejectSurrounding, rejectSurrounded, bind, Except.bind, hlt] using belowMinimum hfloor rfl rfl rfl rfl hlt
    · have hmin : ∀ m, some min = some m → m ≤ candidate.targetEpoch := by
        intro m hm
        cases hm
        omega
      simpa [rejectSurrounding, rejectSurrounded, bind, Except.bind, hlt] using stage hfloor rfl rfl rfl hmin

end Rvc.Slashing
