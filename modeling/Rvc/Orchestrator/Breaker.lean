import Rvc.BlockService.Order

/-!
# The builder circuit breaker

The breaker counts the builder's misses in a row and in the epoch. A proposal consults it for the boost factor, its
outcome is recorded by the orchestrator, and the counters are cleared in the post-duty window of the first slot of an
epoch, if that slot is processed and the window gets that far.

Every successful proposal is recorded as a success of the builder, a local block of a tripped breaker too; and the
proposal of the slot that clears the counters comes before they are cleared. So the counters are what they should be in
the runs in which neither matters (`Orderly`).
-/

namespace Rvc.Orchestrator

open Rvc.BlockService List Nat

/-! ### The breaker -/

structure CircuitBreakerState where
  consecutiveMisses : Nat
  epochMisses : Nat
  currentEpoch : Nat
  consecutiveLimit : Nat
  epochLimit : Nat
  deriving DecidableEq

namespace CircuitBreakerState

def new (consecutiveLimit epochLimit : Nat) : CircuitBreakerState := ⟨0, 0, 0, consecutiveLimit, epochLimit⟩

section

variable (breaker : CircuitBreakerState)

def isTripped : Bool :=
  if breaker.consecutiveLimit = 0 ∧ breaker.epochLimit = 0 then false
  else
    (0 < breaker.consecutiveLimit ∧ breaker.consecutiveLimit ≤ breaker.consecutiveMisses) ∨
      (0 < breaker.epochLimit ∧ breaker.epochLimit ≤ breaker.epochMisses)

def recordMiss : CircuitBreakerState :=
  { breaker with
    consecutiveMisses := breaker.consecutiveMisses + 1
    epochMisses := breaker.epochMisses + 1 }

def recordSuccess : CircuitBreakerState := { breaker with consecutiveMisses := 0 }

def resetEpoch (newEpoch : Nat) : CircuitBreakerState :=
  if newEpoch ≠ breaker.currentEpoch then
    { breaker with consecutiveMisses := 0, epochMisses := 0, currentEpoch := newEpoch }
  else { breaker with currentEpoch := newEpoch }

end

end CircuitBreakerState

/-! ### A slot of the orchestrator -/

variable {J : Type}

/-- What a proposal meets: the duty, the validator's settings and the answers, except for the breaker; and whether the
outer timeout ends it. -/
structure Proposal (J : Type) where
  env : Env J
  expectedProposerIndex : Nat
  parentRoot : Option EthTypes.Root
  timedOut : Bool

/-- A slot at which the loop looks at the clock. `proposal` is there if the slot has a duty of a known key that may
sign, and `reachesReset` says that the post-duty work is not abandoned before the epoch-boundary part. -/
structure SlotRun (J : Type) where
  slot : Nat
  proposal : Option (Proposal J)
  reachesReset : Bool

def SlotRun.Resets (run : SlotRun J) : Prop := run.slot % slotsPerEpoch = 0 ∧ run.reachesReset = true

instance (run : SlotRun J) : Decidable run.Resets := inferInstanceAs (Decidable (_ ∧ _))

/-- The validator's settings with the breaker that the block service consults. -/
def Proposal.consulting (proposal : Proposal J) (breaker : CircuitBreakerState) : Env J :=
  { proposal.env with circuitBreakerTripped := breaker.isTripped }

section

variable (P : Primitives J) (proposal : Proposal J) (breaker : CircuitBreakerState) (slot : Nat)

def Proposal.result : Except BlockServiceError BlockProposalResult :=
  (proposeBlock P (proposal.consulting breaker) slot proposal.expectedProposerIndex proposal.parentRoot).result

def isBuilderFailure : BlockServiceError → Bool
  | .builderFailure _ | .builderOnly _ => true
  | _ => false

def maybeProposeBlock (breaker : CircuitBreakerState) (slot : Nat) : Option (Proposal J) → CircuitBreakerState
  | none => breaker
  | some proposal =>
    if proposal.timedOut then breaker
    else
      match proposal.result P breaker slot with
      | .ok _ => breaker.recordSuccess
      | .error e => if isBuilderFailure e then breaker.recordMiss else breaker

/-! ### What the counters are about -/

inductive BuilderOutcome where
  | success
  | miss
  | neither
  deriving DecidableEq

/-- A miss ends in one of the two builder errors; a success has a boost factor that is not zero. -/
def Proposal.outcome : BuilderOutcome :=
  if proposal.timedOut then .neither
  else
    match proposal.result P breaker slot, boostFor (proposal.consulting breaker) with
    | .ok _, .ok boost => if 0 < boost then .success else .neither
    | .ok _, .error _ => .neither
    | .error e, _ => if isBuilderFailure e then .miss else .neither

end

abbrev Outcomes := List (Nat × BuilderOutcome)

def epochOf (slot : Nat) : Nat := slot / slotsPerEpoch

def missedIn (epoch : Nat) (entry : Nat × BuilderOutcome) : Bool := entry.2 = .miss ∧ epochOf entry.1 = epoch

def epochMissesOf (epoch : Nat) (outcomes : Outcomes) : Nat := outcomes.countP (missedIn epoch)

/-- The misses of an epoch since the last success of the builder. -/
def consecutiveMissesOf (epoch : Nat) (outcomes : Outcomes) : Nat :=
  (outcomes.takeWhile fun entry => entry.2 ≠ .success).countP (missedIn epoch)

/-! ### Runs -/

structure Loop where
  breaker : CircuitBreakerState
  lastProcessedSlot : Option Nat
  outcomes : Outcomes

namespace Loop

def new (consecutiveLimit epochLimit : Nat) : Loop := ⟨.new consecutiveLimit epochLimit, none, []⟩

def Due (s : Loop) (slot : Nat) : Prop := ∀ last ∈ s.lastProcessedSlot, last < slot

instance (s : Loop) (slot : Nat) : Decidable (s.Due slot) := inferInstanceAs (Decidable (∀ last ∈ _, last < slot))

/-- A slot that is not after the last processed one is skipped. -/
def step (P : Primitives J) (s : Loop) (run : SlotRun J) : Loop :=
  if s.Due run.slot then
    let breaker := maybeProposeBlock P s.breaker run.slot run.proposal
    ⟨if run.Resets then breaker.resetEpoch (epochOf run.slot) else breaker, some run.slot,
      (run.proposal.toList.map fun proposal => (run.slot, proposal.outcome P s.breaker run.slot)) ++ s.outcomes⟩
  else s

def run (P : Primitives J) (s : Loop) (runs : List (SlotRun J)) : Loop := runs.foldl (step P) s

def Entering (s : Loop) (slot : Nat) : Prop := ∀ last ∈ s.lastProcessedSlot, epochOf last ≠ epochOf slot

def Clear (s : Loop) : Prop := s.breaker.consecutiveMisses = 0 ∧ s.breaker.epochMisses = 0

/-- When a slot keeps the counters right: the first processed slot of an epoch finds nothing counted, or makes no
proposal and resets; a slot that resets does not miss; a success without the builder has nothing to clear. -/
structure Orderly (P : Primitives J) (s : Loop) (run : SlotRun J) : Prop where
  enters : s.Entering run.slot → s.Clear ∨ run.proposal = none ∧ run.Resets
  resets : run.Resets → epochOf run.slot ≠ s.breaker.currentEpoch →
    ∀ proposal ∈ run.proposal, proposal.outcome P s.breaker run.slot ≠ .miss
  succeeds : ∀ proposal ∈ run.proposal, proposal.timedOut = false →
    (proposal.result P s.breaker run.slot).isOk → proposal.outcome P s.breaker run.slot ≠ .success →
    s.breaker.consecutiveMisses = 0

instance (s : Loop) (slot : Nat) : Decidable (s.Entering slot) :=
  inferInstanceAs (Decidable (∀ last ∈ s.lastProcessedSlot, epochOf last ≠ epochOf slot))

instance (s : Loop) : Decidable s.Clear := inferInstanceAs (Decidable (_ ∧ _))

instance (P : Primitives J) (s : Loop) (run : SlotRun J) : Decidable (Orderly P s run) :=
  have : Decidable (run.proposal = none) := decidable_of_iff (run.proposal.isNone = true) Option.isNone_iff_eq_none
  decidable_of_iff ((s.Entering run.slot → s.Clear ∨ run.proposal = none ∧ run.Resets) ∧
      (run.Resets → epochOf run.slot ≠ s.breaker.currentEpoch →
        ∀ proposal ∈ run.proposal, proposal.outcome P s.breaker run.slot ≠ .miss) ∧
      ∀ proposal ∈ run.proposal, proposal.timedOut = false → (proposal.result P s.breaker run.slot).isOk →
        proposal.outcome P s.breaker run.slot ≠ .success → s.breaker.consecutiveMisses = 0)
    ⟨fun h => ⟨h.1, h.2.1, h.2.2⟩, fun h => ⟨h.enters, h.resets, h.succeeds⟩⟩

/-! ### Orderly runs -/

/-- Every slot that a run processes is orderly where it comes. -/
def AllOrderly (P : Primitives J) : Loop → List (SlotRun J) → Prop
  | _, [] => True
  | s, visit :: visits => (s.Due visit.slot → Orderly P s visit) ∧ AllOrderly P (s.step P visit) visits

instance decidableAllOrderly (P : Primitives J) :
    (s : Loop) → (visits : List (SlotRun J)) → Decidable (AllOrderly P s visits)
  | _, [] => .isTrue trivial
  | s, visit :: visits =>
    have := decidableAllOrderly P (s.step P visit) visits
    inferInstanceAs (Decidable (_ ∧ _))

structure Counts (breaker : CircuitBreakerState) (outcomes : Outcomes) (epoch : Nat) : Prop where
  consecutive : breaker.consecutiveMisses = consecutiveMissesOf epoch outcomes
  inEpoch : breaker.epochMisses = epochMissesOf epoch outcomes

/-- Between two slots the counters are those of the epoch of the last one. -/
structure Inv (s : Loop) : Prop where
  fresh : s.lastProcessedSlot = none → s.Clear ∧ s.outcomes = [] ∧ s.breaker.currentEpoch = 0
  counts : ∀ last ∈ s.lastProcessedSlot, Counts s.breaker s.outcomes (epochOf last)
  epoch_le : ∀ last ∈ s.lastProcessedSlot, s.breaker.currentEpoch ≤ epochOf last
  slot_le : ∀ last ∈ s.lastProcessedSlot, ∀ entry ∈ s.outcomes, entry.1 ≤ last
  decreasing : s.outcomes.Pairwise fun later earlier => earlier.1 < later.1

variable {P : Primitives J} {s : Loop} {visit : SlotRun J} {breaker : CircuitBreakerState} {outcomes : Outcomes}
  {epoch slot : Nat}

theorem countP_missedIn_eq_zero (h : ∀ entry ∈ outcomes, epochOf entry.1 ≠ epoch) :
    outcomes.countP (missedIn epoch) = 0 := by
  refine countP_eq_zero.mpr fun entry hentry hmissed => h entry hentry ?_
  exact (of_decide_eq_true hmissed).2

theorem counts_of_older (hconsecutive : breaker.consecutiveMisses = 0) (hepoch : breaker.epochMisses = 0)
    (h : ∀ entry ∈ outcomes, epochOf entry.1 ≠ epoch) : Counts breaker outcomes epoch where
  consecutive := by
    rw [hconsecutive]
    exact (countP_missedIn_eq_zero fun entry hentry => h entry ((takeWhile_sublist _).subset hentry)).symm
  inEpoch := by
    rw [hepoch]
    exact (countP_missedIn_eq_zero h).symm

theorem epochOf_lt {last : Nat} (hlt : last < slot) (hne : epochOf last ≠ epochOf slot) : epochOf last < epochOf slot :=
  Nat.lt_of_le_of_ne (Nat.div_le_div_right hlt.le) hne

theorem Inv.older (h : Inv s) (hdue : s.Due slot) (henters : s.Entering slot) :
    ∀ entry ∈ s.outcomes, epochOf entry.1 ≠ epochOf slot := by
  intro entry hentry
  cases hlast : s.lastProcessedSlot with
  | none =>
    rw [(h.fresh hlast).2.1] at hentry
    cases hentry
  | some last =>
    have hle : epochOf entry.1 ≤ epochOf last := Nat.div_le_div_right (h.slot_le last hlast entry hentry)
    exact (Nat.lt_of_le_of_lt hle (epochOf_lt (hdue last hlast) (henters last hlast))).ne

theorem Inv.counts_at (h : Inv s) (hdue : s.Due visit.slot) (horderly : Orderly P s visit)
    (hfinds : ¬(visit.proposal = none ∧ visit.Resets) ∨ s.Clear) :
    Counts s.breaker s.outcomes (epochOf visit.slot) := by
  by_cases henters : s.Entering visit.slot
  · obtain ⟨hconsecutive, hepoch⟩ : s.Clear := hfinds.elim (horderly.enters henters).resolve_right id
    exact counts_of_older hconsecutive hepoch (h.older hdue henters)
  · simp only [Entering, not_forall, not_not] at henters
    obtain ⟨last, hlast, heq⟩ := henters
    exact heq ▸ h.counts last hlast

theorem Counts.miss (h : Counts breaker outcomes (epochOf slot)) :
    Counts breaker.recordMiss ((slot, .miss) :: outcomes) (epochOf slot) where
  consecutive := by simp [CircuitBreakerState.recordMiss, h.consecutive, consecutiveMissesOf, missedIn]
  inEpoch := by simp [CircuitBreakerState.recordMiss, h.inEpoch, epochMissesOf, missedIn]

theorem Counts.success (h : Counts breaker outcomes epoch) :
    Counts breaker.recordSuccess ((slot, .success) :: outcomes) epoch where
  consecutive := by simp [CircuitBreakerState.recordSuccess, consecutiveMissesOf]
  inEpoch := by simp [CircuitBreakerState.recordSuccess, h.inEpoch, epochMissesOf, missedIn]

theorem Counts.neither (h : Counts breaker outcomes epoch) : Counts breaker ((slot, .neither) :: outcomes) epoch where
  consecutive := by simp [h.consecutive, consecutiveMissesOf, missedIn]
  inEpoch := by simp [h.inEpoch, epochMissesOf, missedIn]

theorem recordSuccess_eq (h : breaker.consecutiveMisses = 0) : breaker.recordSuccess = breaker := by
  cases breaker
  cases h
  rfl

theorem outcome_of_ok {proposal : Proposal J} {result : BlockProposalResult} (htimedOut : ¬proposal.timedOut = true)
    (hresult : proposal.result P breaker slot = .ok result) :
    proposal.outcome P breaker slot = .success ∨ proposal.outcome P breaker slot = .neither := by
  rw [Proposal.outcome, if_neg htimedOut, hresult]
  cases boostFor (proposal.consulting breaker) with
  | error e => exact .inr rfl
  | ok boost =>
    by_cases hboost : 0 < boost
    · exact .inl (if_pos hboost)
    · exact .inr (if_neg hboost)

theorem Counts.propose (h : Counts breaker outcomes (epochOf slot)) (proposal : Proposal J)
    (hsucceeds : proposal.timedOut = false → (proposal.result P breaker slot).isOk →
      proposal.outcome P breaker slot ≠ .success → breaker.consecutiveMisses = 0) :
    Counts (maybeProposeBlock P breaker slot (some proposal))
      ((slot, proposal.outcome P breaker slot) :: outcomes) (epochOf slot) := by
  simp only [maybeProposeBlock]
  split_ifs with htimedOut
  · have houtcome : proposal.outcome P breaker slot = .neither := if_pos htimedOut
    rw [houtcome]
    exact h.neither
  · cases hresult : proposal.result P breaker slot with
    | ok result =>
      rcases outcome_of_ok htimedOut hresult with houtcome | houtcome
      · rw [houtcome]
        exact h.success
      · have hzero : breaker.consecutiveMisses = 0 :=
          hsucceeds (Bool.not_eq_true _ ▸ htimedOut) (by rw [hresult]; rfl) (by rw [houtcome]; decide)
        rw [houtcome]
        rw [recordSuccess_eq hzero]
        exact h.neither
    | error e =>
      have houtcome : proposal.outcome P breaker slot = if isBuilderFailure e then .miss else .neither := by
        rw [Proposal.outcome, if_neg htimedOut, hresult]
      rw [houtcome]
      show Counts (if isBuilderFailure e = true then breaker.recordMiss else breaker) _ _
      split_ifs
      · exact h.miss
      · exact h.neither

theorem currentEpoch_maybeProposeBlock (proposal : Option (Proposal J)) :
    (maybeProposeBlock P breaker slot proposal).currentEpoch = breaker.currentEpoch := by
  unfold maybeProposeBlock
  split
  · rfl
  · split_ifs
    · rfl
    · split
      · rfl
      · split_ifs <;> rfl

theorem resetEpoch_of_eq (h : epoch = breaker.currentEpoch) : breaker.resetEpoch epoch = breaker := by
  subst h
  exact if_neg (not_not.mpr rfl)

open CircuitBreakerState

theorem counts_resetEpoch_of_ne (hne : epoch ≠ breaker.currentEpoch) (hmisses : epochMissesOf epoch outcomes = 0) :
    Counts (breaker.resetEpoch epoch) outcomes epoch := by
  rw [resetEpoch, if_pos hne]
  refine ⟨(le_zero.mp ?_).symm, hmisses.symm⟩
  exact hmisses ▸ (takeWhile_sublist _).countP_le

def added (P : Primitives J) (s : Loop) (visit : SlotRun J) : Outcomes :=
  visit.proposal.toList.map fun proposal => (visit.slot, proposal.outcome P s.breaker visit.slot)

theorem mem_added {entry : Nat × BuilderOutcome} (h : entry ∈ added P s visit) :
    ∃ proposal ∈ visit.proposal, entry = (visit.slot, proposal.outcome P s.breaker visit.slot) := by
  obtain ⟨proposal, hproposal, rfl⟩ := mem_map.mp h
  exact ⟨proposal, Option.mem_toList.mp hproposal, rfl⟩

theorem Inv.counts_proposed (h : Inv s) (hdue : s.Due visit.slot) (horderly : Orderly P s visit)
    (hfinds : ¬(visit.proposal = none ∧ visit.Resets) ∨ s.Clear) :
    Counts (maybeProposeBlock P s.breaker visit.slot visit.proposal) (added P s visit ++ s.outcomes)
      (epochOf visit.slot) := by
  have hcounts := h.counts_at hdue horderly hfinds
  unfold added
  cases hproposal : visit.proposal with
  | none => exact hcounts
  | some proposal => exact hcounts.propose proposal (horderly.succeeds proposal hproposal)

theorem entering_of_resets (hdue : s.Due visit.slot) (hresets : visit.Resets) : s.Entering visit.slot := by
  intro last hlast heq
  have hlt := hdue last hlast
  have hfirst := hresets.1
  unfold epochOf slotsPerEpoch at heq
  unfold slotsPerEpoch at hfirst
  omega

theorem Inv.counts_step (h : Inv s) (hdue : s.Due visit.slot) (horderly : Orderly P s visit) : Counts
      (if visit.Resets then (maybeProposeBlock P s.breaker visit.slot visit.proposal).resetEpoch (epochOf visit.slot)
        else maybeProposeBlock P s.breaker visit.slot visit.proposal)
      (added P s visit ++ s.outcomes) (epochOf visit.slot) := by
  split_ifs with hresets
  · have henters := entering_of_resets hdue hresets
    have hcurrent : (maybeProposeBlock P s.breaker visit.slot visit.proposal).currentEpoch = s.breaker.currentEpoch :=
      currentEpoch_maybeProposeBlock visit.proposal
    by_cases heq : epochOf visit.slot = s.breaker.currentEpoch
    · -- only a loop that has not processed a slot is in the epoch that it enters
      have hclear : s.Clear := by
        cases hlast : s.lastProcessedSlot with
        | none => exact (h.fresh hlast).1
        | some last =>
          have hlt := epochOf_lt (hdue last hlast) (henters last hlast)
          have hle := h.epoch_le last hlast
          omega
      rw [resetEpoch_of_eq (hcurrent ▸ heq)]
      exact h.counts_proposed hdue horderly (.inr hclear)
    · refine counts_resetEpoch_of_ne (hcurrent ▸ heq) ?_
      refine countP_eq_zero.mpr fun entry hentry hmissed => ?_
      obtain ⟨hmiss, hepoch⟩ := of_decide_eq_true hmissed
      rcases mem_append.mp hentry with hentry | hentry
      · obtain ⟨proposal, hproposal, rfl⟩ := mem_added hentry
        exact horderly.resets hresets heq proposal hproposal hmiss
      · exact h.older hdue henters entry hentry hepoch
  · exact h.counts_proposed hdue horderly (.inl fun hnone => hresets hnone.2)

theorem Inv.currentEpoch_le (h : Inv s) (hdue : s.Due slot) : s.breaker.currentEpoch ≤ epochOf slot := by
  cases hlast : s.lastProcessedSlot with
  | none =>
    rw [(h.fresh hlast).2.2]
    exact Nat.zero_le _
  | some last => exact (h.epoch_le last hlast).trans (Nat.div_le_div_right (hdue last hlast).le)

theorem Inv.slot_lt_of_due (h : Inv s) (hdue : s.Due slot) : ∀ entry ∈ s.outcomes, entry.1 < slot := by
  intro entry hentry
  cases hlast : s.lastProcessedSlot with
  | none =>
    rw [(h.fresh hlast).2.1] at hentry
    cases hentry
  | some last => exact (h.slot_le last hlast entry hentry).trans_lt (hdue last hlast)

theorem currentEpoch_resetEpoch : (breaker.resetEpoch epoch).currentEpoch = epoch := by
  unfold resetEpoch
  split_ifs <;> rfl

theorem Inv.new (consecutiveLimit epochLimit : Nat) : Inv (new consecutiveLimit epochLimit) :=
  ⟨fun _ => ⟨⟨rfl, rfl⟩, rfl, rfl⟩, nofun, nofun, nofun, .nil⟩

theorem pairwise_added (h : ∀ entry ∈ outcomes, entry.1 < visit.slot)
    (houtcomes : outcomes.Pairwise fun later earlier => earlier.1 < later.1) :
    (added P s visit ++ outcomes).Pairwise fun later earlier => earlier.1 < later.1 := by
  unfold added
  cases visit.proposal with
  | none => exact houtcomes
  | some proposal => exact .cons h houtcomes

theorem Inv.step (h : Inv s) (horderly : s.Due visit.slot → Orderly P s visit) : Inv (s.step P visit) := by
  unfold Loop.step
  by_cases hdue : s.Due visit.slot
  · rw [if_pos hdue]
    refine ⟨nofun, fun last hlast => ?_, fun last hlast => ?_, fun last hlast entry hentry => ?_,
      pairwise_added (h.slot_lt_of_due hdue) h.decreasing⟩
    all_goals cases hlast
    · exact h.counts_step hdue (horderly hdue)
    · split_ifs
      · exact currentEpoch_resetEpoch.le
      · rw [currentEpoch_maybeProposeBlock]
        exact h.currentEpoch_le hdue
    · rcases mem_append.mp hentry with hentry | hentry
      · obtain ⟨proposal, -, rfl⟩ := mem_added hentry
        exact le_rfl
      · exact (h.slot_lt_of_due hdue entry hentry).le
  · rw [if_neg hdue]
    exact h

theorem Inv.run {visits : List (SlotRun J)} (h : Inv s) (horderly : AllOrderly P s visits) : Inv (s.run P visits) := by
  induction visits generalizing s with
  | nil => exact h
  | cons visit visits ih => exact ih (h.step horderly.1) horderly.2

/-- An epoch has no more misses than slots. -/
theorem epochMissesOf_le (h : outcomes.Pairwise fun later earlier => earlier.1 < later.1) :
    epochMissesOf epoch outcomes ≤ slotsPerEpoch := by
  have hnodup : ((outcomes.filter (missedIn epoch)).map Prod.fst).Nodup :=
    pairwise_map.mpr ((h.sublist filter_sublist).imp fun hlt => hlt.ne')
  have hslots : (outcomes.filter (missedIn epoch)).map Prod.fst ⊆ range' (slotsPerEpoch * epoch) slotsPerEpoch := by
    intro slot hslot
    obtain ⟨entry, hentry, rfl⟩ := mem_map.mp hslot
    have hepoch : entry.1 / slotsPerEpoch = epoch := (of_decide_eq_true (mem_filter.mp hentry).2).2
    rw [mem_range'_1]
    unfold slotsPerEpoch at hepoch ⊢
    omega
  have hlength := (subperm_of_subset hnodup hslots).length_le
  rwa [length_map, ← countP_eq_length_filter, length_range'] at hlength

theorem Inv.misses_le (h : Inv s) :
    s.breaker.consecutiveMisses ≤ slotsPerEpoch ∧ s.breaker.epochMisses ≤ slotsPerEpoch := by
  cases hlast : s.lastProcessedSlot with
  | none =>
    obtain ⟨hconsecutive, hepoch⟩ := (h.fresh hlast).1
    rw [hconsecutive, hepoch]
    exact ⟨zero_le _, zero_le _⟩
  | some last =>
    have hcounts := h.counts last hlast
    have hmisses : epochMissesOf (epochOf last) s.outcomes ≤ slotsPerEpoch := epochMissesOf_le h.decreasing
    rw [hcounts.consecutive, hcounts.inEpoch]
    exact ⟨(takeWhile_sublist _).countP_le.trans hmisses, hmisses⟩

/-- The counters of an orderly run do not come near the `u32` that they are in the source. -/
theorem misses_le_of_allOrderly (consecutiveLimit epochLimit : Nat) {visits : List (SlotRun J)}
    (h : AllOrderly P (new consecutiveLimit epochLimit) visits) :
    ((new consecutiveLimit epochLimit).run P visits).breaker.consecutiveMisses ≤ 32 ∧
      ((new consecutiveLimit epochLimit).run P visits).breaker.epochMisses ≤ 32 :=
  ((Inv.new consecutiveLimit epochLimit).run h).misses_le

theorem AllOrderly.append {before after : List (SlotRun J)} (h : AllOrderly P s (before ++ after)) :
    AllOrderly P s before ∧ AllOrderly P (s.run P before) after := by
  induction before generalizing s with
  | nil => exact ⟨trivial, h⟩
  | cons visit before ih =>
    obtain ⟨hbefore, hafter⟩ := ih h.2
    exact ⟨⟨h.1, hbefore⟩, hafter⟩

theorem isTripped_recordMiss (h : breaker.isTripped = true) : breaker.recordMiss.isTripped = true := by
  unfold isTripped recordMiss at *
  split_ifs at h ⊢
  simp only [decide_eq_true_eq] at h ⊢
  omega

theorem isTripped_of_clear (hconsecutive : breaker.consecutiveMisses = 0) (hepoch : breaker.epochMisses = 0) :
    breaker.isTripped = false := by
  unfold isTripped
  split_ifs
  · rfl
  · simp only [hconsecutive, hepoch, decide_eq_false_iff_not]
    omega

theorem Orderly.isTripped_maybeProposeBlock {proposal : Proposal J} (horderly : Orderly P s visit)
    (hproposal : visit.proposal = some proposal) (htripped : s.breaker.isTripped = true)
    (houtcome : proposal.outcome P s.breaker visit.slot ≠ .success) :
    (maybeProposeBlock P s.breaker visit.slot visit.proposal).isTripped = true := by
  rw [hproposal]
  simp only [maybeProposeBlock]
  split_ifs with htimedOut
  · exact htripped
  · cases hresult : proposal.result P s.breaker visit.slot with
    | ok result =>
      have hzero := horderly.succeeds proposal hproposal (Bool.not_eq_true _ ▸ htimedOut) (by rw [hresult]; rfl)
        houtcome
      rwa [recordSuccess_eq hzero]
    | error e =>
      show (if isBuilderFailure e = true then s.breaker.recordMiss else s.breaker).isTripped = true
      split_ifs
      · exact isTripped_recordMiss htripped
      · exact htripped

/-- In an orderly run the breaker that a proposal consults has counted the misses of the epoch, those in a row since
the last success of the builder; so it is not tripped in an epoch without misses, and a local block does not clear
it. -/
theorem breaker_counts_faithful (P : Primitives J) (consecutiveLimit epochLimit : Nat) (visits : List (SlotRun J))
    (horderly : AllOrderly P (new consecutiveLimit epochLimit) visits) :
    ∀ before visit after proposal, visits = before ++ visit :: after → visit.proposal = some proposal →
      let s := (new consecutiveLimit epochLimit).run P before
      let epoch := epochOf visit.slot
      s.Due visit.slot →
      s.breaker.consecutiveMisses = consecutiveMissesOf epoch s.outcomes ∧
        s.breaker.epochMisses = epochMissesOf epoch s.outcomes ∧
        (epochMissesOf epoch s.outcomes = 0 → s.breaker.isTripped = false) ∧
        (s.breaker.isTripped = true → proposal.outcome P s.breaker visit.slot ≠ .success →
          (maybeProposeBlock P s.breaker visit.slot visit.proposal).isTripped = true) := by
  intro before visit after proposal hvisits hproposal s epoch hdue
  rw [hvisits] at horderly
  obtain ⟨hbefore, hvisit, -⟩ := horderly.append
  have hinv : Inv s := (Inv.new consecutiveLimit epochLimit).run hbefore
  have hcounts : Counts s.breaker s.outcomes epoch :=
    hinv.counts_at hdue (hvisit hdue) (.inl fun hnone => by rw [hproposal] at hnone; cases hnone.1)
  refine ⟨hcounts.consecutive, hcounts.inEpoch, fun hzero => ?_, (hvisit hdue).isTripped_maybeProposeBlock hproposal⟩
  have hle : consecutiveMissesOf epoch s.outcomes ≤ epochMissesOf epoch s.outcomes :=
    (takeWhile_sublist _).countP_le
  exact isTripped_of_clear (by rw [hcounts.consecutive]; omega) (by rw [hcounts.inEpoch]; exact hzero)

/-- The block of the test vectors, two slots later. -/
def sampleBlock : Primitives Unit :=
  { electraVector with
    leavesRoot := fun _ _ _ _ _ => rootOfNat 0x086600a52f3a3be4bb98603b004d951fed92da7bf365beaef61d216e77ae1375 }

def building : Proposal Unit :=
  ⟨{ electraEnv (contentsText 12 [] (blockText 3000002 84 [])) with mode := .builderAlways }, 42, none, false⟩

def failing : Proposal Unit :=
  ⟨{ electraEnv [] with mode := .builderAlways, produce := .error (.beacon "no block") }, 42, none, false⟩

theorem breaker_counts_faithful_two_misses :
    let visits : List (SlotRun Unit) := [⟨3000000, none, true⟩, ⟨3000001, some failing, true⟩]
    AllOrderly sampleBlock (new 1 5) (visits ++ [⟨3000003, some failing, true⟩]) ∧
      ((new 1 5).run sampleBlock visits).breaker.consecutiveMisses = 1 ∧
      consecutiveMissesOf 93750 ((new 1 5).run sampleBlock visits).outcomes = 1 := by
  intro visits
  have horderly : AllOrderly sampleBlock (new 1 5) (visits ++ [⟨3000003, some failing, true⟩]) := by decide +kernel
  have hone : ((new 1 5).run sampleBlock visits).breaker.consecutiveMisses = 1 := by decide +kernel
  have hcounts := breaker_counts_faithful sampleBlock 1 5 _ horderly visits ⟨3000003, some failing, true⟩ [] failing rfl
    rfl (by decide +kernel)
  exact ⟨horderly, hone, hcounts.1.symm.trans hone⟩

def missed : Loop := (new 1 5).run sampleBlock [⟨3000000, none, true⟩, ⟨3000001, some failing, true⟩]

def missedThenLocal : Loop := missed.step sampleBlock ⟨3000002, some building, true⟩

def missedThenNoReset : Loop := missed.step sampleBlock ⟨3000032, none, false⟩

def missedAtReset : Loop := (new 1 5).run sampleBlock [⟨3000000, some failing, true⟩]

/-- A local block clears a tripped breaker; without the reset the breaker stays tripped in an epoch without misses; and
the miss of the slot that resets is lost. -/
theorem breaker_counts_diverge :
    (missed.breaker.isTripped = true ∧ boostFor (building.consulting missed.breaker) = .ok 0 ∧
      (building.result sampleBlock missed.breaker 3000002).isOk = true ∧ missedThenLocal.breaker.isTripped = false ∧
      missedThenLocal.breaker.consecutiveMisses = 0 ∧ consecutiveMissesOf 93750 missedThenLocal.outcomes = 1) ∧
    (missedThenNoReset.breaker.isTripped = true ∧ missedThenNoReset.breaker.epochMisses = 1 ∧
      epochMissesOf 93751 missedThenNoReset.outcomes = 0) ∧
    missedAtReset.breaker.epochMisses = 0 ∧ epochMissesOf 93750 missedAtReset.outcomes = 1 := by
  decide +kernel

end Loop

end Rvc.Orchestrator
