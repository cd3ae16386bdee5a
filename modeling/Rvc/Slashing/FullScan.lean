import Mathlib.Data.List.Find
import Rvc.Slashing.History

/-!
# The full-scan oracle

`rules.rs` keeps the history that answers every question by a scan over the unsigned values, as the oracle
the SQL history is tested against. The SQL history compares the stored `i64` images. The two orders agree
on each half of the `u64` range and put the halves the other way round (`SignedLt`), so the answers can
differ once values from both halves meet. `sql_agrees_iff` says exactly when a check comes out differently:
a surround that holds in one order only, or a minimum taken over rows of both halves.
-/

namespace Rvc.Slashing

open Rvc.Lib List Nat Except SlashingError Option AttestationCandidate AttestationRow ExistingAtt Tables Function

/-! ### The oracle -/

def fullScanAttestationHistory (rows : List ExistingAtt) : AttestationHistory where
  conflictingAtTarget target := .ok (rows.find? fun r => r.targetEpoch = target)
  surroundingExists source target :=
    .ok ((rows.find? fun r => source < r.sourceEpoch ∧ r.targetEpoch < target).map fun r =>
      (r.sourceEpoch, r.targetEpoch))
  surroundedExists source target :=
    .ok ((rows.find? fun r => r.sourceEpoch < source ∧ target < r.targetEpoch).map fun r =>
      (r.sourceEpoch, r.targetEpoch))
  minTarget := .ok (rows.map (·.targetEpoch)).min?

def fullScanBlockHistory (rows : List (Nat × Option String)) : BlockHistory where
  signingRootAtSlot slot := .ok ((rows.find? fun r => r.1 = slot).map (·.2))
  minSlot := .ok (rows.map (·.1)).min?

/-- `load_full_scan_att`: the rows of one pubkey in row order, read as `u64`. -/
def loadFullScanAtt (t : Tables) (pubkey : String) : List ExistingAtt :=
  (t.attestationsOf pubkey).map (·.toExisting)

def loadFullScanBlock (t : Tables) (pubkey : String) : List (Nat × Option String) :=
  (t.blocksOf pubkey).map fun row => (asU64 row.slot, row.signingRoot)

/-! ### The same outcome -/

/-- The kinds of refusal a check can end in; any other error is its own kind. -/
inductive ViolationKind where
  | doubleVote
  | surroundingVote
  | surroundedVote
  | targetEpochBelowMinimum
  | doubleBlockProposal
  | slotBelowMinimum
  | belowBlockWatermark
  | belowAttestationWatermark
  | belowAttestationSourceWatermark
  | other (e : SlashingError)
  deriving DecidableEq

def SlashingError.violationKind : SlashingError → ViolationKind
  | .slashableAttestation (.doubleVote _) => .doubleVote
  | .slashableAttestation (.surroundingVote _ _ _ _) => .surroundingVote
  | .slashableAttestation (.surroundedVote _ _ _ _) => .surroundedVote
  | .slashableAttestation (.targetEpochBelowMinimum _ _) => .targetEpochBelowMinimum
  | .slashableBlock (.doubleBlockProposal _) => .doubleBlockProposal
  | .slashableBlock (.slotBelowMinimum _ _) => .slotBelowMinimum
  | .belowBlockWatermark _ _ _ => .belowBlockWatermark
  | .belowAttestationWatermark _ _ _ => .belowAttestationWatermark
  | .belowAttestationSourceWatermark _ _ _ => .belowAttestationSourceWatermark
  | e => .other e

def outcomeKind {ν : Type} (result : Except SlashingError ν) : Except ViolationKind ν :=
  result.mapError (·.violationKind)

@[simp] theorem outcomeKind_ok {ν : Type} (verdict : ν) : outcomeKind (.ok verdict) = .ok verdict := rfl

@[simp] theorem outcomeKind_error {ν : Type} (e : SlashingError) :
    outcomeKind (.error e : Except SlashingError ν) = .error e.violationKind := rfl

def UnderMinimum (min : Option Nat) (n : Nat) : Prop := ∃ m, min = some m ∧ n < m

instance (min : Option Nat) (n : Nat) : Decidable (UnderMinimum min n) :=
  decidable_of_iff (∃ m ∈ min, n < m) (by simp [UnderMinimum])

@[simp] theorem underMinimum_none (n : Nat) : ¬ UnderMinimum none n := by simp [UnderMinimum]

@[simp] theorem underMinimum_some (m n : Nat) : UnderMinimum (some m) n ↔ n < m := by
  simp [UnderMinimum]

def IsDoubleVote (existing : Option ExistingAtt) (candidate : AttestationCandidate) (strict : Bool) : Prop :=
  ∃ row, existing = some row ∧ isResign row.signingRoot candidate.signingRoot strict = false

section

variable {pubkey : String} {watermarks : AttestationWatermarks} {candidate : AttestationCandidate}
  {strict : Bool}

theorem outcomeKind_of_not_admits (history history' : AttestationHistory) (h : ¬ watermarks.Admits candidate) :
    outcomeKind (checkAttestation pubkey history watermarks candidate strict) =
      outcomeKind (checkAttestation pubkey history' watermarks candidate strict) := by
  unfold checkAttestation
  by_cases hsource : ∀ ws, watermarks.source = some ws → ws ≤ candidate.sourceEpoch
  · have htarget : ∃ wt, watermarks.target = some wt ∧ candidate.targetEpoch ≤ wt := by
      by_contra hnone
      apply h
      refine ⟨hsource, fun wt hwt => ?_⟩
      by_contra hle
      exact hnone ⟨wt, hwt, Nat.not_lt.mp hle⟩
    obtain ⟨wt, hwt, hle⟩ := htarget
    simp [checkTargetFloor, hwt, hle, bind, Except.bind]
  · simp only [not_forall, Nat.not_le] at hsource
    obtain ⟨ws, hws, hlt⟩ := hsource
    simp [checkSourceFloor, hws, hlt, bind, Except.bind]

theorem outcomeKind_of_admits {history : AttestationHistory} {existing : Option ExistingAtt}
    {surrounding surrounded : Option (Nat × Nat)} {min : Option Nat} (hfloor : watermarks.Admits candidate)
    (hexisting : history.conflictingAtTarget candidate.targetEpoch = .ok existing) (hsurrounding :
      history.surroundingExists candidate.sourceEpoch candidate.targetEpoch = .ok surrounding)
    (hsurrounded : history.surroundedExists candidate.sourceEpoch candidate.targetEpoch = .ok surrounded)
    (hmin : history.minTarget = .ok min) [Decidable (IsDoubleVote existing candidate strict)] :
    outcomeKind (checkAttestation pubkey history watermarks candidate strict) =
      if IsDoubleVote existing candidate strict then .error .doubleVote
      else if surrounding.isSome then .error .surroundingVote
      else if surrounded.isSome then .error .surroundedVote
      else if existing.isSome then .ok .duplicate
      else if UnderMinimum min candidate.targetEpoch then .error .targetEpochBelowMinimum
      else .ok .stage := by
  unfold checkAttestation
  rw [checkSourceFloor_ok hfloor.1, checkTargetFloor_ok hfloor.2, hexisting, hsurrounding, hsurrounded, hmin]
  by_cases hdouble : IsDoubleVote existing candidate strict
  · rw [if_pos hdouble]
    obtain ⟨row, rfl, hne⟩ := hdouble
    simp [checkTargetRow, hne, bind, Except.bind, violationKind]
  have hflag : checkTargetRow existing candidate strict = .ok existing.isSome := by
    cases existing with
    | none => rfl
    | some row =>
      have hres : isResign row.signingRoot candidate.signingRoot strict = true := by
        by_contra hne
        exact hdouble ⟨row, rfl, by simpa using hne⟩
      simp [checkTargetRow, hres]
  simp only [if_neg hdouble, bind, Except.bind, hflag]
  cases surrounding with
  | some vote => rfl
  | none =>
  cases surrounded with
  | some vote => rfl
  | none =>
  cases existing with
  | some row => rfl
  | none =>
  cases min with
  | none => simp [rejectSurrounding, rejectSurrounded]
  | some m =>
    by_cases hlt : candidate.targetEpoch < m
    · simp [rejectSurrounding, rejectSurrounded, hlt, violationKind]
    · simp [rejectSurrounding, rejectSurrounded, hlt]

end

variable {candidate : BlockCandidate} {watermarks : BlockWatermarks} {strict : Bool}

theorem outcomeKind_checkBlock_some {pubkey : String} {history : BlockHistory} {root : Option String}
    (hfloor : watermarks.Admits candidate.slot)
    (hexisting : history.signingRootAtSlot candidate.slot = .ok (some root)) :
    outcomeKind (checkBlock pubkey history watermarks candidate strict) =
      if isResign root candidate.signingRoot strict then .ok .resign else .error .doubleBlockProposal := by
  unfold checkBlock
  rw [checkBlockFloor_ok hfloor, hexisting]
  cases hres : isResign root candidate.signingRoot strict with
  | true => simp [hres, bind, Except.bind]
  | false => simp [hres, bind, Except.bind, violationKind]

theorem outcomeKind_checkBlock_none {pubkey : String} {history : BlockHistory} {min : Option Nat}
    (hfloor : watermarks.Admits candidate.slot)
    (hexisting : history.signingRootAtSlot candidate.slot = .ok none) (hmin : history.minSlot = .ok min) :
    outcomeKind (checkBlock pubkey history watermarks candidate strict) =
      if UnderMinimum min candidate.slot then .error .slotBelowMinimum else .ok .stage := by
  unfold checkBlock
  rw [checkBlockFloor_ok hfloor, hexisting, hmin]
  cases min with
  | none => simp [bind, Except.bind]
  | some m =>
    by_cases hlt : candidate.slot < m
    · simp [hlt, bind, Except.bind, violationKind]
    · simp [hlt, bind, Except.bind]

theorem outcomeKind_checkBlock_of_not_admits {pubkey : String} (history history' : BlockHistory)
    (h : ¬ watermarks.Admits candidate.slot) : outcomeKind (checkBlock pubkey history watermarks candidate strict) =
      outcomeKind (checkBlock pubkey history' watermarks candidate strict) := by
  simp only [BlockWatermarks.Admits, not_forall, Nat.not_lt] at h
  obtain ⟨wm, hwm, hle⟩ := h
  unfold checkBlock
  simp [checkBlockFloor, hwm, hle, bind, Except.bind]

/-! ### Minima in the two orders -/

/-- The values lie in both halves, one of the lower half is not above `n`, and all of the upper half are:
the signed minimum, which is in the upper half, is above `n` and the unsigned one is not. -/
structure MinimumStraddles (values : List Nat) (n : Nat) : Prop where
  low : ∃ v ∈ values, v < 2 ^ 63 ∧ v ≤ n
  high : ∃ v ∈ values, 2 ^ 63 ≤ v
  above : ∀ v ∈ values, 2 ^ 63 ≤ v → n < v

theorem underMinimum_iff {values : List Nat} {n : Nat} :
    UnderMinimum values.min? n ↔ values ≠ [] ∧ ∀ v ∈ values, n < v := by
  constructor
  · rintro ⟨m, hm, hlt⟩
    obtain ⟨hmem, hle⟩ := min?_eq_some_iff.mp hm
    exact ⟨ne_nil_of_mem hmem, fun v hv => hlt.trans_le (hle v hv)⟩
  · rintro ⟨hne, hall⟩
    obtain ⟨m, hm⟩ := isSome_iff_exists.mp (isSome_min?_iff.mpr hne)
    exact ⟨m, hm, hall m (min?_eq_some_iff.mp hm).1⟩

theorem underMinimum_signed_iff {stored : List Int} (hrange : ∀ i ∈ stored, InI64 i) {n : Nat} :
    UnderMinimum (stored.min?.map asU64) n ↔ stored ≠ [] ∧
      (∀ i ∈ stored, i < 0 → n < asU64 i) ∧ ((∀ i ∈ stored, 0 ≤ i) → ∀ i ∈ stored, n < asU64 i) := by
  have hmono : ∀ i ∈ stored, ∀ j ∈ stored, i ≤ j → (0 ≤ i ∨ j < 0) → asU64 i ≤ asU64 j :=
    fun i hi j hj => asU64_mono_of_half (hrange i hi) (hrange j hj)
  constructor
  · rintro ⟨m, hm, hlt⟩
    obtain ⟨least, hleast, rfl⟩ := map_eq_some_iff.mp hm
    obtain ⟨hmem, hle⟩ := min?_eq_some_iff.mp hleast
    refine ⟨ne_nil_of_mem hmem, fun i hi hneg => ?_, fun hpos i hi => ?_⟩
    · exact hlt.trans_le (hmono least hmem i hi (hle i hi) (.inr hneg))
    · exact hlt.trans_le (hmono least hmem i hi (hle i hi) (.inl (hpos least hmem)))
  · rintro ⟨hne, hneg, hpos⟩
    obtain ⟨least, hleast⟩ := isSome_iff_exists.mp (isSome_min?_iff.mpr hne)
    obtain ⟨hmem, hle⟩ := min?_eq_some_iff.mp hleast
    refine ⟨asU64 least, by rw [hleast]; rfl, ?_⟩
    by_cases hsign : least < 0
    · exact hneg least hmem hsign
    · exact hpos (fun i hi => (Int.not_lt.mp hsign).trans (hle i hi)) least hmem

theorem underMinimum_agree_iff {stored : List Int} (hrange : ∀ i ∈ stored, InI64 i) {n : Nat} :
    (UnderMinimum (stored.min?.map asU64) n ↔ UnderMinimum (stored.map asU64).min? n) ↔
      ¬ MinimumStraddles (stored.map asU64) n := by
  have hhalf : ∀ i ∈ stored, (2 ^ 63 ≤ asU64 i ↔ i < 0) := fun i hi => le_asU64_iff_neg (hrange i hi)
  rw [underMinimum_signed_iff hrange, underMinimum_iff]
  simp only [ne_eq, map_eq_nil_iff, List.forall_mem_map]
  constructor
  · rintro hagree ⟨⟨v, hv, hvlow, hle⟩, ⟨w, hw, hwhigh⟩, habove⟩
    obtain ⟨i, hi, rfl⟩ := mem_map.mp hv
    obtain ⟨j, hj, rfl⟩ := mem_map.mp hw
    have hsigned : ∀ i ∈ stored, i < 0 → n < asU64 i := fun i hi hneg =>
      habove _ (mem_map_of_mem hi) ((hhalf i hi).mpr hneg)
    have hmixed : ¬ ∀ i ∈ stored, 0 ≤ i := fun hall =>
      absurd ((hhalf j hj).mp hwhigh) (Int.not_lt.mpr (hall j hj))
    obtain ⟨-, hunsigned⟩ := hagree.mp ⟨ne_nil_of_mem hi, hsigned, fun hall => absurd hall hmixed⟩
    exact absurd (hunsigned i hi) (not_lt.mpr hle)
  · intro hstraddle
    constructor
    · rintro ⟨hne, hneg, hpos⟩
      refine ⟨hne, fun i hi => ?_⟩
      by_contra hle
      have hlow : ¬ i < 0 := fun hi' => hle (hneg i hi hi')
      apply hstraddle
      refine ⟨⟨asU64 i, mem_map_of_mem hi, ?_, not_lt.mp hle⟩, ?_, ?_⟩
      · exact not_le.mp fun hhigh => hlow ((hhalf i hi).mp hhigh)
      · by_contra hnone
        apply hle
        refine hpos (fun j hj => ?_) i hi
        by_contra hj'
        exact hnone ⟨asU64 j, mem_map_of_mem hj, (hhalf j hj).mpr (Int.not_le.mp hj')⟩
      · intro v hv hhigh
        obtain ⟨j, hj, rfl⟩ := mem_map.mp hv
        exact hneg j hj ((hhalf j hj).mp hhigh)
    · rintro ⟨hne, hall⟩
      exact ⟨hne, fun i hi _ => hall i hi, fun _ => hall⟩

/-! ### Surrounds in the two orders -/

def SurroundsIn (lt : Nat → Nat → Prop) (a b : Vote Nat) : Prop := lt a.source b.source ∧ lt b.target a.target

def AttestationCandidate.epochs (candidate : AttestationCandidate) : Vote Nat :=
  ⟨candidate.sourceEpoch, candidate.targetEpoch⟩

def ExistingAtt.epochs (row : ExistingAtt) : Vote Nat := ⟨row.sourceEpoch, row.targetEpoch⟩

structure Tables.Written (t : Tables) : Prop where
  attestations : ∀ row ∈ t.attestations, ∃ source target, source < 2 ^ 64 ∧ target < 2 ^ 64 ∧
    row.sourceEpoch = asI64 source ∧ row.targetEpoch = asI64 target
  blocks : ∀ row ∈ t.blocks, ∃ slot, slot < 2 ^ 64 ∧ row.slot = asI64 slot

section

variable {t : Tables} {pubkey : String} {candidate : AttestationCandidate}

theorem AttestationRow.surrounds_iff (ht : t.Written) {row : AttestationRow} (hrow : row ∈ t.attestations)
    (hs : candidate.sourceEpoch < 2 ^ 64) (htgt : candidate.targetEpoch < 2 ^ 64) :
    (candidate.vote.Surrounds row.vote ↔ SurroundsIn SignedLt candidate.epochs row.toExisting.epochs) ∧
      (row.vote.Surrounds candidate.vote ↔
        SurroundsIn SignedLt row.toExisting.epochs candidate.epochs) := by
  obtain ⟨source, target, hsource, htarget, hrs, hrt⟩ := ht.attestations row hrow
  have hs' : asU64 row.sourceEpoch = source := by rw [hrs, asU64_asI64_of_lt hsource]
  have ht' : asU64 row.targetEpoch = target := by rw [hrt, asU64_asI64_of_lt htarget]
  simp only [Vote.Surrounds, SurroundsIn, AttestationCandidate.vote, vote,
    AttestationCandidate.epochs, toExisting, ExistingAtt.epochs, hs', ht']
  rw [hrs, hrt, asI64_lt_asI64 hs hsource, asI64_lt_asI64 hsource hs, asI64_lt_asI64 htgt htarget,
    asI64_lt_asI64 htarget htgt]
  exact ⟨Iff.rfl, Iff.rfl⟩

theorem mem_loadFullScanAtt {row : ExistingAtt} : row ∈ loadFullScanAtt t pubkey ↔
      ∃ stored ∈ t.attestations, stored.pubkey = pubkey ∧ stored.toExisting = row := by
  simp [loadFullScanAtt, and_assoc]

theorem conflictingAtTarget_eq (ht : t.Written) (htgt : candidate.targetEpoch < 2 ^ 64) :
    (targetedSqlAttestationHistory t pubkey).conflictingAtTarget candidate.targetEpoch =
      (fullScanAttestationHistory (loadFullScanAtt t pubkey)).conflictingAtTarget candidate.targetEpoch := by
  simp only [targetedSqlAttestationHistory, fullScanAttestationHistory, loadFullScanAtt,
    rowAtTarget, find?_map, ok.injEq]
  congr 1
  apply find?_congr
  intro row hrow
  obtain ⟨source, target, -, htarget, -, hrt⟩ :=
    ht.attestations row (mem_attestationsOf.mp hrow).1
  simp [comp, toExisting, hrt, asU64_asI64_of_lt htarget, asI64_inj htarget htgt]

theorem isSome_find_iff {found : AttestationRow → Prop} [DecidablePred found] {holds : ExistingAtt → Prop}
    (h : ∀ row ∈ t.attestations, found row ↔ holds row.toExisting) :
    ((t.attestationsOf pubkey).find? fun row => found row).isSome = true ↔
      ∃ row ∈ loadFullScanAtt t pubkey, holds row := by
  rw [find?_isSome]
  constructor
  · rintro ⟨row, hrow, hfound⟩
    obtain ⟨hin, hpk⟩ := mem_attestationsOf.mp hrow
    exact ⟨_, mem_loadFullScanAtt.mpr ⟨row, hin, hpk, rfl⟩, (h row hin).mp (of_decide_eq_true hfound)⟩
  · rintro ⟨_, hrow, hholds⟩
    obtain ⟨row, hin, hpk, rfl⟩ := mem_loadFullScanAtt.mp hrow
    exact ⟨row, mem_attestationsOf.mpr ⟨hin, hpk⟩, decide_eq_true ((h row hin).mpr hholds)⟩

end

/-! ### Where the histories part -/

theorem refusedWhen_eq_iff {ε ν : Type} {P Q : Prop} [Decidable P] [Decidable Q] {e : ε} {verdict : ν} :
    ((if P then .error e else .ok verdict : Except ε ν) = if Q then .error e else .ok verdict) ↔
      (P ↔ Q) := by
  by_cases hP : P <;> by_cases hQ : Q <;> simp [hP, hQ]

/-- Two runs through the rules end alike when every rule up to the first that fires answers alike. -/
theorem rules_eq_iff {D A A' B B' E M M' : Prop} [Decidable D] [Decidable A] [Decidable A'] [Decidable B]
    [Decidable B'] [Decidable E] [Decidable M] [Decidable M'] :
    ((if D then .error .doubleVote else if A then .error .surroundingVote
        else if B then .error .surroundedVote else if E then .ok .duplicate
        else if M then .error .targetEpochBelowMinimum else .ok .stage :
        Except ViolationKind AttestationVerdict) =
      if D then .error .doubleVote else if A' then .error .surroundingVote
        else if B' then .error .surroundedVote else if E then .ok .duplicate
        else if M' then .error .targetEpochBelowMinimum else .ok .stage) ↔
      D ∨ ((A ↔ A') ∧ (A ∨ ((B ↔ B') ∧ (B ∨ E ∨ (M ↔ M'))))) := by
  grind

/-- Above the floors and with no double vote, the first rule the two orders judge differently. -/
inductive AttestationDiverges (rows : List ExistingAtt) (watermarks : AttestationWatermarks)
    (candidate : AttestationCandidate) (strict : Bool) : Prop
  /-- The candidate surrounds a row in exactly one of the orders. -/
  | surrounding (hfloor : watermarks.Admits candidate)
      (hrow : ¬ IsDoubleVote (rows.find? fun r => r.targetEpoch = candidate.targetEpoch) candidate strict)
      (h : ¬ ((∃ row ∈ rows, SurroundsIn SignedLt candidate.epochs row.epochs) ↔
        ∃ row ∈ rows, SurroundsIn (· < ·) candidate.epochs row.epochs))
  /-- It surrounds none, and a row surrounds it in exactly one of the orders. -/
  | surrounded (hfloor : watermarks.Admits candidate)
      (hrow : ¬ IsDoubleVote (rows.find? fun r => r.targetEpoch = candidate.targetEpoch) candidate strict)
      (hsurrounding : ∀ row ∈ rows, ¬ SurroundsIn SignedLt candidate.epochs row.epochs ∧
        ¬ SurroundsIn (· < ·) candidate.epochs row.epochs)
      (h : ¬ ((∃ row ∈ rows, SurroundsIn SignedLt row.epochs candidate.epochs) ↔
        ∃ row ∈ rows, SurroundsIn (· < ·) row.epochs candidate.epochs))
  /-- No surround either way, no row at the target, and the targets straddle the candidate's. -/
  | minimum (hfloor : watermarks.Admits candidate) (hfree : ∀ row ∈ rows, row.targetEpoch ≠ candidate.targetEpoch)
      (hsurrounding : ∀ row ∈ rows, ¬ SurroundsIn SignedLt candidate.epochs row.epochs ∧
        ¬ SurroundsIn (· < ·) candidate.epochs row.epochs)
      (hsurrounded : ∀ row ∈ rows, ¬ SurroundsIn SignedLt row.epochs candidate.epochs ∧
        ¬ SurroundsIn (· < ·) row.epochs candidate.epochs)
      (h : MinimumStraddles (rows.map (·.targetEpoch)) candidate.targetEpoch)

/-- Above the floor, at a slot without a row, the slots straddle the candidate's. -/
structure BlockDiverges (rows : List (Nat × Option String)) (watermarks : BlockWatermarks)
    (candidate : BlockCandidate) : Prop where
  floor : watermarks.Admits candidate.slot
  free : ∀ row ∈ rows, row.1 ≠ candidate.slot
  straddles : MinimumStraddles (rows.map (·.1)) candidate.slot

section

variable {t : Tables} {pubkey : String}

theorem checkBlock_agree_iff (ht : t.Written) (watermarks : BlockWatermarks) (hslot : candidate.slot < 2 ^ 64) :
    outcomeKind (checkBlock pubkey (targetedSqlBlockHistory t pubkey) watermarks candidate strict) =
        outcomeKind (checkBlock pubkey (fullScanBlockHistory (loadFullScanBlock t pubkey)) watermarks
          candidate strict) ↔
      ¬ BlockDiverges (loadFullScanBlock t pubkey) watermarks candidate := by
  by_cases hfloor : watermarks.Admits candidate.slot
  case neg =>
    have hnot : ¬ BlockDiverges (loadFullScanBlock t pubkey) watermarks candidate :=
      fun hdiv => hfloor hdiv.floor
    exact iff_of_true (outcomeKind_checkBlock_of_not_admits _ _ hfloor) hnot
  have hrange : ∀ i ∈ (t.blocksOf pubkey).map (·.slot), InI64 i := by
    intro i hi
    obtain ⟨row, hrow, rfl⟩ := mem_map.mp hi
    obtain ⟨slot, -, heq⟩ := ht.blocks row (Tables.mem_blocksOf.mp hrow).1
    rw [heq]
    exact inI64_asI64 slot
  have hvalues : ((t.blocksOf pubkey).map (·.slot)).map asU64 = (loadFullScanBlock t pubkey).map (·.1) := by
    simp [loadFullScanBlock, Function.comp_def]
  have hrow : (targetedSqlBlockHistory t pubkey).signingRootAtSlot candidate.slot =
      (fullScanBlockHistory (loadFullScanBlock t pubkey)).signingRootAtSlot candidate.slot := by
    simp only [targetedSqlBlockHistory, fullScanBlockHistory, loadFullScanBlock, Tables.rowAtSlot,
      List.find?_map, Option.map_map, ok.injEq]
    congr 1
    apply List.find?_congr
    intro row hrow
    obtain ⟨slot, hlt, heq⟩ := ht.blocks row (Tables.mem_blocksOf.mp hrow).1
    simp [Function.comp, heq, asU64_asI64_of_lt hlt, asI64_inj hlt hslot]
  cases hfound : (loadFullScanBlock t pubkey).find? fun r => r.1 = candidate.slot with
  | some row =>
    have hfull : (fullScanBlockHistory (loadFullScanBlock t pubkey)).signingRootAtSlot candidate.slot =
        .ok (some row.2) := by simp [fullScanBlockHistory, hfound]
    have hnot : ¬ BlockDiverges (loadFullScanBlock t pubkey) watermarks candidate := fun hdiv =>
      hdiv.free row (mem_of_find?_eq_some hfound) (by simpa using List.find?_some hfound)
    rw [outcomeKind_checkBlock_some hfloor (hrow.trans hfull), outcomeKind_checkBlock_some hfloor hfull]
    exact iff_of_true rfl hnot
  | none =>
    have hfull : (fullScanBlockHistory (loadFullScanBlock t pubkey)).signingRootAtSlot candidate.slot =
        .ok none := by simp [fullScanBlockHistory, hfound]
    have hfree : ∀ row ∈ loadFullScanBlock t pubkey, row.1 ≠ candidate.slot := by
      simpa [List.find?_eq_none] using hfound
    rw [outcomeKind_checkBlock_none hfloor (hrow.trans hfull) rfl, outcomeKind_checkBlock_none hfloor hfull rfl]
    have hagree := underMinimum_agree_iff hrange (n := candidate.slot)
    rw [hvalues] at hagree
    rw [refusedWhen_eq_iff]
    refine hagree.trans (not_congr ⟨fun h => ⟨hfloor, hfree, h⟩, fun hdiv => hdiv.straddles⟩)

theorem checkAttestation_agree_iff (ht : t.Written) (watermarks : AttestationWatermarks)
    {candidate : AttestationCandidate} (hs : candidate.sourceEpoch < 2 ^ 64) (htgt : candidate.targetEpoch < 2 ^ 64) :
    outcomeKind (checkAttestation pubkey (targetedSqlAttestationHistory t pubkey) watermarks candidate
          strict) = outcomeKind (checkAttestation pubkey (fullScanAttestationHistory (loadFullScanAtt t pubkey))
          watermarks candidate strict) ↔
      ¬ AttestationDiverges (loadFullScanAtt t pubkey) watermarks candidate strict := by
  classical
  by_cases hfloor : watermarks.Admits candidate
  case neg =>
    have hnot : ¬ AttestationDiverges (loadFullScanAtt t pubkey) watermarks candidate strict := by
      rintro (⟨h, _⟩ | ⟨h, _⟩ | ⟨h, _⟩) <;> exact hfloor h
    exact iff_of_true (outcomeKind_of_not_admits _ _ hfloor) hnot
  have hrange : ∀ i ∈ (t.attestationsOf pubkey).map (·.targetEpoch), InI64 i := by
    intro i hi
    obtain ⟨row, hrow, rfl⟩ := mem_map.mp hi
    obtain ⟨-, target, -, -, -, heq⟩ := ht.attestations row (Tables.mem_attestationsOf.mp hrow).1
    rw [heq]
    exact inI64_asI64 target
  have hagree := underMinimum_agree_iff hrange (n := candidate.targetEpoch)
  have hvalues : ((t.attestationsOf pubkey).map (·.targetEpoch)).map asU64 =
      (loadFullScanAtt t pubkey).map (·.targetEpoch) := by
    simp [loadFullScanAtt, toExisting, Function.comp_def]
  rw [hvalues] at hagree
  rw [outcomeKind_of_admits hfloor (conflictingAtTarget_eq ht htgt) rfl rfl rfl,
    outcomeKind_of_admits hfloor rfl rfl rfl rfl]
  have hsigned : (t.rowSurroundedBy pubkey ⟨asI64 candidate.sourceEpoch, asI64 candidate.targetEpoch⟩).isSome = true ↔
      ∃ row ∈ loadFullScanAtt t pubkey, SurroundsIn SignedLt candidate.epochs row.epochs :=
    isSome_find_iff fun row hrow => (surrounds_iff ht hrow hs htgt).1
  have hsigned' : (t.rowSurrounding pubkey ⟨asI64 candidate.sourceEpoch, asI64 candidate.targetEpoch⟩).isSome = true ↔
      ∃ row ∈ loadFullScanAtt t pubkey, SurroundsIn SignedLt row.epochs candidate.epochs :=
    isSome_find_iff fun row hrow => (surrounds_iff ht hrow hs htgt).2
  have hunsigned : ((loadFullScanAtt t pubkey).find? fun r => candidate.sourceEpoch < r.sourceEpoch ∧
      r.targetEpoch < candidate.targetEpoch).isSome = true ↔
      ∃ row ∈ loadFullScanAtt t pubkey, SurroundsIn (· < ·) candidate.epochs row.epochs := by
    simp [SurroundsIn, AttestationCandidate.epochs, ExistingAtt.epochs]
  have hunsigned' : ((loadFullScanAtt t pubkey).find? fun r => r.sourceEpoch < candidate.sourceEpoch ∧
      candidate.targetEpoch < r.targetEpoch).isSome = true ↔
      ∃ row ∈ loadFullScanAtt t pubkey, SurroundsIn (· < ·) row.epochs candidate.epochs := by
    simp [SurroundsIn, AttestationCandidate.epochs, ExistingAtt.epochs]
  have hfree : ((loadFullScanAtt t pubkey).find? fun r => r.targetEpoch = candidate.targetEpoch).isSome =
      true ↔ ∃ row ∈ loadFullScanAtt t pubkey, row.targetEpoch = candidate.targetEpoch := by
    simp
  simp only [rules_eq_iff, Option.isSome_map]
  rw [hsigned, hsigned', hunsigned, hunsigned', hfree]
  have htaken : IsDoubleVote ((loadFullScanAtt t pubkey).find? fun r =>
      r.targetEpoch = candidate.targetEpoch) candidate strict →
      ∃ row ∈ loadFullScanAtt t pubkey, row.targetEpoch = candidate.targetEpoch := by
    rintro ⟨row, hfound, -⟩
    exact ⟨row, mem_of_find?_eq_some hfound, by simpa using List.find?_some hfound⟩
  constructor
  · rintro hrules (⟨_, hrow, h⟩ | ⟨_, hrow, hnone, h⟩ | ⟨_, hfree, hnone, hnone', h⟩) <;> grind
  · intro hnot
    have hsurrounding := fun hrow h => hnot (.surrounding hfloor hrow h)
    have hsurrounded := fun hrow hnone h => hnot (.surrounded hfloor hrow hnone h)
    have hminimum := fun hfree hnone hnone' h => hnot (.minimum hfloor hfree hnone hnone' h)
    grind

end

/-- **Where the SQL history and the oracle agree.** Over rows written by the inserts, on the whole `u64`
range, a check gives the same verdict or the same kind of violation over the SQL history as over the full
scan exactly when it does not diverge in the listed ways. -/
theorem sql_agrees_iff {t : Tables} (ht : t.Written) :
    (∀ pubkey watermarks candidate strict, candidate.sourceEpoch < 2 ^ 64 → candidate.targetEpoch < 2 ^ 64 →
      (outcomeKind (checkAttestation pubkey (targetedSqlAttestationHistory t pubkey) watermarks candidate
            strict) = outcomeKind (checkAttestation pubkey (fullScanAttestationHistory (loadFullScanAtt t pubkey))
            watermarks candidate strict) ↔
        ¬ AttestationDiverges (loadFullScanAtt t pubkey) watermarks candidate strict)) ∧
    ∀ pubkey watermarks candidate strict, candidate.slot < 2 ^ 64 →
      (outcomeKind (checkBlock pubkey (targetedSqlBlockHistory t pubkey) watermarks candidate strict) =
          outcomeKind (checkBlock pubkey (fullScanBlockHistory (loadFullScanBlock t pubkey)) watermarks
            candidate strict) ↔ ¬ BlockDiverges (loadFullScanBlock t pubkey) watermarks candidate) :=
  ⟨fun _ watermarks _ _ hs htgt => checkAttestation_agree_iff ht watermarks hs htgt,
    fun _ watermarks _ _ hslot => checkBlock_agree_iff ht watermarks hslot⟩

theorem AttestationDiverges.not_small {rows : List ExistingAtt} {watermarks : AttestationWatermarks}
    {candidate : AttestationCandidate} (hc : candidate.Small)
    (hrows : ∀ row ∈ rows, row.sourceEpoch < 2 ^ 63 ∧ row.targetEpoch < 2 ^ 63) :
    ¬ AttestationDiverges rows watermarks candidate strict := by
  have hsame : ∀ row ∈ rows, (SurroundsIn SignedLt candidate.epochs row.epochs ↔
      SurroundsIn (· < ·) candidate.epochs row.epochs) ∧
      (SurroundsIn SignedLt row.epochs candidate.epochs ↔
        SurroundsIn (· < ·) row.epochs candidate.epochs) := by
    intro row hrow
    obtain ⟨hsource, htarget⟩ := hrows row hrow
    simp only [SurroundsIn, AttestationCandidate.epochs, ExistingAtt.epochs, signedLt_iff_of_lt hc.1 hsource,
      signedLt_iff_of_lt hsource hc.1, signedLt_iff_of_lt hc.2 htarget, signedLt_iff_of_lt htarget hc.2,
      and_self]
  rintro (⟨-, -, h⟩ | ⟨-, -, -, h⟩ | ⟨-, -, -, -, h⟩)
  · exact h (exists_congr fun row => and_congr_right fun hrow => (hsame row hrow).1)
  · exact h (exists_congr fun row => and_congr_right fun hrow => (hsame row hrow).2)
  · obtain ⟨v, hv, hhigh⟩ := h.high
    obtain ⟨row, hrow, rfl⟩ := mem_map.mp hv
    exact absurd (hrows row hrow).2 (Nat.not_lt.mpr hhigh)

def oneVote : Tables where
  attestations := [⟨auditOrigin, "0xaa", asI64 2, asI64 3, some "0x01", none⟩]
  blocks := []
  watermarks := ∅
  metadataGvr := none

theorem oneVote_written : oneVote.Written := by
  refine ⟨fun row hrow => ?_, fun row hrow => absurd hrow (by simp [oneVote])⟩
  obtain rfl := mem_singleton.mp hrow
  exact ⟨2, 3, by decide, by decide, rfl, rfl⟩

theorem sql_agrees_iff_oneVote :
    outcomeKind (checkAttestation "0xaa" (targetedSqlAttestationHistory oneVote "0xaa") ⟨none, none⟩
        ⟨1, 2 ^ 63 - 1, some "0x02"⟩ true) =
      outcomeKind (checkAttestation "0xaa" (fullScanAttestationHistory (loadFullScanAtt oneVote "0xaa"))
        ⟨none, none⟩ ⟨1, 2 ^ 63 - 1, some "0x02"⟩ true) := by
  refine ((sql_agrees_iff oneVote_written).1 "0xaa" ⟨none, none⟩ ⟨1, 2 ^ 63 - 1, some "0x02"⟩ true
    (by decide) (by decide)).mpr ?_
  exact AttestationDiverges.not_small ⟨by decide, by decide⟩ (by decide)

/-- The vote from 1 to `2 ^ 63 + 1` surrounds the stored one. The oracle refuses it; in SQL its target is
negative, and it is staged. -/
theorem sql_accepts_surrounding_vote : oneVote.Written ∧
      checkAttestation "0xaa" (targetedSqlAttestationHistory oneVote "0xaa") ⟨none, none⟩
          ⟨1, 2 ^ 63 + 1, some "0x02"⟩ true = .ok .stage ∧
      checkAttestation "0xaa" (fullScanAttestationHistory (loadFullScanAtt oneVote "0xaa")) ⟨none, none⟩
          ⟨1, 2 ^ 63 + 1, some "0x02"⟩ true = .error (.slashableAttestation (.surroundingVote 1 (2 ^ 63 + 1) 2 3)) :=
  ⟨oneVote_written, by decide, by decide⟩

end Rvc.Slashing
