import Mathlib.Algebra.Order.Floor.Div
import Mathlib.Tactic.Ring
import Rvc.Lib.Overflow
import Rvc.Lib.Ownership
import Rvc.Timing.Clock

/-!
# The window of a slashing-protection import

`ImportWindowGate` admits one interchange import at a time, and only when the time it is estimated to hold the database
fits between the attestations of a slot and the block of the next. The slot is placed on the monotonic clock by one
read of the wall clock (`SlotAnchor`), which is exact to a millisecond; every estimate holds a millisecond for that.

Durations are nanoseconds. So are the instants of both clocks, counted from the epoch: the two are taken to run alike.
-/

namespace Rvc.KeymanagerAdapters.ImportWindow

open Rvc.Lib Rvc.EthTypes Rvc.Timing Option Nat SlotClock

/-! ### Durations and instants -/

def u128Size : Nat := 2 ^ 128

def checkedU128 (n : Nat) : Option Nat := if n < u128Size then some n else none

def saturatedU128 (n : Nat) : Nat := min n (u128Size - 1)

def durationMax : Nat := 10 ^ 9 * u64Size - 1

def checkedDuration (n : Nat) : Option Nat := if n ≤ durationMax then some n else none

def instantMax : Nat := 10 ^ 9 * 2 ^ 63 - 1

def checkedInstant (n : Nat) : Option Nat := if n ≤ instantMax then some n else none

def checkedSub (n k : Nat) : Option Nat := if k ≤ n then some (n - k) else none

def durationFromNanos (ns : Nat) : Nat := (checkedU64 ns).getD durationMax

/-! ### The estimate -/

structure GroupCommitConfig where
  batchSize : Nat
  waitToFill : Nat

def GroupCommitConfig.default : GroupCommitConfig := ⟨50, fromMillis 1⟩

structure ImportWindowConfig where
  attReserveMargin : Nat
  blockReserveMargin : Nat
  perRowHold : Nat
  perRowPreLock : Nat
  minHold : Nat
  postAdmit : Nat

def groupCommitBatch : Nat := 6018000

def slotQuantumAllowance : Nat := fromMillis 1

def preLockSpread : Nat := 440000

def slowHostMargin : Nat := 31116000

def perValidatorParseFactor : Nat := 2

def fixedTail (batch waitToFill : Nat) : Nat :=
  (do
    let total ← checkedDuration (batch + waitToFill)
    checkedDuration (total + slotQuantumAllowance)).getD durationMax

namespace ImportWindowConfig

def measured : ImportWindowConfig where
  attReserveMargin := fromMillis 500
  blockReserveMargin := fromMillis 200
  perRowHold := 12311
  perRowPreLock := 142
  minHold := 12311
  postAdmit := fixedTail groupCommitBatch GroupCommitConfig.default.waitToFill

end ImportWindowConfig

def ceilMulDiv (value numerator denominator : Nat) : Option Nat :=
  if denominator = 0 then none else (checkedU128 (value * numerator)).map (· ⌈/⌉ denominator)

def scaledMarginNs (rowHold preLock : Nat) : Option Nat := do
  let slow ← ceilMulDiv rowHold 31116 658322
  let spread ← ceilMulDiv preLock 440 7571
  let proportional ← checkedU128 (slow + spread)
  let fixed ← checkedU128 (slowHostMargin + preLockSpread)
  return max proportional fixed

def loadMarginNs (rowHold : Nat) : Option Nat := ceilMulDiv rowHold 165480586 658318414

def shapeMarginNs (rowHold : Nat) : Option Nat := ceilMulDiv rowHold 1 5

def estimatedHoldNs (rows : Nat) (cfg : ImportWindowConfig) : Option Nat := do
  let rows := saturatedU128 rows
  let linear := saturatedU128 (cfg.perRowHold * rows)
  let rowHold := max linear cfg.minHold
  let preLock := saturatedU128 (cfg.perRowPreLock * rows)
  let preLockBudget := saturatedU128 (preLock * perValidatorParseFactor)
  let margin ← scaledMarginNs rowHold preLockBudget
  let load ← loadMarginNs rowHold
  let shape ← shapeMarginNs rowHold
  let total ← checkedU128 (rowHold + preLockBudget)
  let total ← checkedU128 (total + margin)
  let total ← checkedU128 (total + load)
  let total ← checkedU128 (total + shape)
  checkedU128 (total + cfg.postAdmit)

def estimatedHold (rows : Nat) (cfg : ImportWindowConfig) : Nat :=
  match estimatedHoldNs rows cfg with
  | none => durationMax
  | some total => durationFromNanos total

theorem below_checkedU128 {n m : Nat} (h : n ≤ m) : Below (checkedU128 n) (checkedU128 m) :=
  .ite (p := (· < u128Size)) (fun _ _ => lt_of_le_of_lt) h

theorem saturatedU128_mono {n m : Nat} (h : n ≤ m) : saturatedU128 n ≤ saturatedU128 m := min_le_min_right _ h

theorem below_ceilMulDiv {value value' : Nat} (h : value ≤ value') (numerator denominator : Nat) :
    Below (ceilMulDiv value numerator denominator) (ceilMulDiv value' numerator denominator) := by
  unfold ceilMulDiv
  split_ifs with hzero
  · nofun
  · have hpos : 0 < denominator := pos_of_ne_zero hzero
    exact (below_checkedU128 (mul_le_mul_right numerator h)).map (gc_mul_ceilDiv hpos).monotone_l

theorem below_scaledMarginNs {rowHold rowHold' preLock preLock' : Nat} (hrow : rowHold ≤ rowHold')
    (hlock : preLock ≤ preLock') : Below (scaledMarginNs rowHold preLock) (scaledMarginNs rowHold' preLock') := by
  refine (below_ceilMulDiv hrow _ _).bind fun slow slow' hslow => ?_
  refine (below_ceilMulDiv hlock _ _).bind fun spread spread' hspread => ?_
  refine (below_checkedU128 (Nat.add_le_add hslow hspread)).bind fun total total' htotal => ?_
  refine (below_checkedU128 le_rfl).bind fun fixed fixed' hfixed => ?_
  exact .some (max_le_max htotal hfixed)

theorem below_estimatedHoldNs {rows rows' : Nat} (h : rows ≤ rows') (cfg : ImportWindowConfig) :
    Below (estimatedHoldNs rows cfg) (estimatedHoldNs rows' cfg) := by
  have hrows := saturatedU128_mono h
  have hrow := max_le_max_right cfg.minHold (saturatedU128_mono (Nat.mul_le_mul_left cfg.perRowHold hrows))
  have hlock := saturatedU128_mono (Nat.mul_le_mul_right perValidatorParseFactor
    (saturatedU128_mono (Nat.mul_le_mul_left cfg.perRowPreLock hrows)))
  refine (below_scaledMarginNs hrow hlock).bind fun margin margin' hmargin => ?_
  refine (below_ceilMulDiv hrow _ _).bind fun load load' hload => ?_
  refine (below_ceilMulDiv hrow _ _).bind fun shape shape' hshape => ?_
  refine (below_checkedU128 (Nat.add_le_add hrow hlock)).bind fun total total' htotal => ?_
  refine (below_checkedU128 (Nat.add_le_add htotal hmargin)).bind fun total total' htotal => ?_
  refine (below_checkedU128 (Nat.add_le_add htotal hload)).bind fun total total' htotal => ?_
  refine (below_checkedU128 (Nat.add_le_add htotal hshape)).bind fun total total' htotal => ?_
  exact below_checkedU128 (Nat.add_le_add_right htotal cfg.postAdmit)

theorem estimatedHold_eq (rows : Nat) (cfg : ImportWindowConfig) :
    estimatedHold rows cfg = ((estimatedHoldNs rows cfg).bind checkedU64).getD durationMax := by
  unfold estimatedHold durationFromNanos
  cases estimatedHoldNs rows cfg <;> rfl

theorem lt_durationMax {n : Nat} (h : n < u64Size) : n < durationMax := by
  unfold durationMax
  omega

theorem estimatedHold_cases (rows : Nat) (cfg : ImportWindowConfig) : estimatedHold rows cfg = durationMax ∨
      estimatedHoldNs rows cfg = some (estimatedHold rows cfg) ∧ estimatedHold rows cfg < durationMax := by
  rw [estimatedHold_eq]
  cases hns : (estimatedHoldNs rows cfg).bind checkedU64 with
  | none => exact .inl rfl
  | some n =>
    obtain ⟨m, hm, hchecked⟩ := bind_eq_some_iff.mp hns
    obtain ⟨rfl, hlt⟩ := checkedU64_eq_some hchecked
    exact .inr ⟨hm, lt_durationMax hlt⟩

theorem estimatedHold_le (rows : Nat) (cfg : ImportWindowConfig) : estimatedHold rows cfg ≤ durationMax := by
  rcases estimatedHold_cases rows cfg with heq | ⟨-, hlt⟩
  · exact heq.le
  · exact hlt.le

theorem estimatedHold_mono {rows rows' : Nat} (h : rows ≤ rows') (cfg : ImportWindowConfig) :
    estimatedHold rows cfg ≤ estimatedHold rows' cfg := by
  have hbelow : Below ((estimatedHoldNs rows cfg).bind checkedU64) ((estimatedHoldNs rows' cfg).bind checkedU64) :=
    (below_estimatedHoldNs h cfg).bind fun _ _ => .ite (p := (· < u64Size)) fun _ _ => lt_of_le_of_lt
  rw [estimatedHold_eq rows' cfg]
  cases hns : (estimatedHoldNs rows' cfg).bind checkedU64 with
  | none => exact estimatedHold_le rows cfg
  | some n =>
    obtain ⟨m, hm, hle⟩ := hbelow n hns
    rw [estimatedHold_eq, hm]
    exact hle

/-! ### Placing a slot -/

structure SlotAnchor where
  slot : Nat
  start : Nat
  capturedIntoSlotMs : Nat
  slotDurationMs : Nat
  deriving DecidableEq

def anchoredStart (now intoMs : Nat) : Nat := (checkedSub now (fromMillis intoMs)).getD now

def slotMs (clock : SlotClock) : Nat := (checkedU64 (asMillis clock.slotDuration)).getD ((u64Size - 1) / 2)

namespace SlotAnchor

/-- The wall clock is read at `readAt`, and the monotonic one at `now`. -/
def capture (clock : SlotClock) (slot readAt now : Nat) : SlotAnchor :=
  let slotDurationMs := slotMs clock
  let into := min (clock.msIntoSlot readAt slot) (u64 (2 * slotDurationMs))
  ⟨slot, anchoredStart now into, into, slotDurationMs⟩

/-- An addition that overflows ends the task; so does one of the checked ones after it. -/
def deadline (anchor : SlotAnchor) (bps : Nat) : Nat := anchor.start + fromMillis (dueMs bps anchor.slotDurationMs)

def slotEnd (anchor : SlotAnchor) : Nat := anchor.start + fromMillis anchor.slotDurationMs

end SlotAnchor

section

variable (anchor : SlotAnchor) (bps : Nat) (cfg : ImportWindowConfig)

def windowBounds (slotsAhead : Nat) : Option (Nat × Nat) := do
  let shift := fromMillis (← checkedU64 (anchor.slotDurationMs * slotsAhead))
  let opening ← checkedInstant (anchor.deadline bps + cfg.attReserveMargin)
  let opening ← checkedInstant (opening + shift)
  let closing ← checkedSub anchor.slotEnd cfg.blockReserveMargin
  let closing ← checkedInstant (closing + shift)
  if closing ≤ opening then none else some (opening, closing)

def freeWindowLen : Nat :=
  match windowBounds anchor bps cfg 0 with
  | some (opening, closing) => closing - opening
  | none => 0

/-- The loop over this slot and the next: the first window that a hold from `now` on fits in. -/
def fitIn {α : Type} (bounds : Nat → Option (Nat × Nat)) (estimate now : Nat) (answer : Nat → Nat → Option α) :
    List Nat → Option α
  | [] => none
  | ahead :: rest => do
    let (opening, closing) ← bounds ahead
    let startAt := max now opening
    if closing ≤ startAt then fitIn bounds estimate now answer rest
    else
      let ending ← checkedInstant (startAt + estimate)
      if ending ≤ closing then answer startAt closing else fitIn bounds estimate now answer rest

def latestStartInFit (estimate now : Nat) : Option Nat :=
  fitIn (windowBounds anchor bps cfg) estimate now (fun _ closing => checkedSub closing estimate) [0, 1]

def earliestStart (estimate now : Nat) : Option Nat :=
  fitIn (windowBounds anchor bps cfg) estimate now (fun startAt _ => some startAt) [0, 1]

end

section

variable (genesisAt openOffset closeOffset slotDuration : Nat)

def preGenesisBounds (ahead : Nat) : Option (Nat × Nat) := do
  let shift ← checkedDuration (slotDuration * ahead)
  let opening ← checkedInstant (genesisAt + openOffset)
  let opening ← checkedInstant (opening + shift)
  let closing ← checkedInstant (genesisAt + closeOffset)
  let closing ← checkedInstant (closing + shift)
  return (opening, closing)

def preGenesisFit (estimate now : Nat) : Option (Nat × Nat) :=
  fitIn (preGenesisBounds genesisAt openOffset closeOffset slotDuration) estimate now
    (fun startAt closing => (checkedSub closing estimate).map fun latest => (startAt, latest)) [0, 1]

def preGenesisStart (estimate now : Nat) : Option Nat :=
  (preGenesisFit genesisAt openOffset closeOffset slotDuration estimate now).map Prod.fst

def preGenesisLatest (estimate now : Nat) : Option Nat :=
  (preGenesisFit genesisAt openOffset closeOffset slotDuration estimate now).map Prod.snd

end

/-! ### The gate -/

inductive ImportDeferralError where
  | noFreeWindow (estimatedHold window : Nat)
  | clock (error : TimingError)
  | queueSaturated (waitedSlots retryAfterSecs : Nat)
  deriving DecidableEq

structure ImportWindowGate where
  clock : SlotClock
  cfg : ImportWindowConfig

structure ImportAdmission where
  wait : Nat
  window : Nat
  estimatedHold : Nat
  latestStart : Nat
  deriving DecidableEq

def queueWaitSlots : Nat := 2

def attestationBps (clock : SlotClock) : Nat := max clock.deadlines.attestation (clock.deadlinesFor .gloas).attestation

/-- The clock reads of `admit` between the mutex and the loop, one after the other: when the mutex was taken, when the
slot was asked for, when the offset in it or the time until genesis was, and when the anchor was placed, or the call
that has room before genesis returns. The milliseconds of the wall clock are a `u64`. -/
structure Reads where
  acquiredAt : Nat
  slotAt : Nat
  readAt : Nat
  anchorAt : Nat
  acquiredAt_le : acquiredAt ≤ slotAt
  slotAt_le : slotAt ≤ readAt
  readAt_le : readAt ≤ anchorAt
  readAt_lt : 1000 * asSecs readAt + 999 < u64Size
  deriving DecidableEq

/-- Where the windows are: from the anchor of a slot, or from genesis. -/
inductive Placement where
  | slot (anchor : SlotAnchor)
  | genesis (genesisAt openOffset closeOffset : Nat)
  deriving DecidableEq

structure Waiting where
  rows : Nat
  queuedAt : Nat
  reads : Reads
  estimate : Nat
  window : Nat
  bound : Nat
  place : Placement
  deriving DecidableEq

inductive Turn where
  | sleepUntil (startAt : Nat)
  | admitted (latestStart : Nat)
  | refuse

def turnAt (bound now : Nat) (startAt latestStart : Option Nat) : Turn :=
  match startAt with
  | none => .refuse
  | some startAt =>
    if bound < startAt then .refuse
    else if now < startAt then .sleepUntil startAt
    else .admitted (latestStart.getD now)

inductive Entered where
  | waiting (waiting : Waiting)
  | admitted (admission : ImportAdmission)

namespace ImportWindowGate

section

variable (gate : ImportWindowGate)

def turn (waiting : Waiting) (now : Nat) : Turn :=
  match waiting.place with
  | .slot anchor =>
    let bps := attestationBps gate.clock
    turnAt waiting.bound now (earliestStart anchor bps gate.cfg waiting.estimate now)
      (latestStartInFit anchor bps gate.cfg waiting.estimate now)
  | .genesis genesisAt openOffset closeOffset =>
    let slotDuration := gate.clock.slotDuration
    turnAt waiting.bound now (preGenesisStart genesisAt openOffset closeOffset slotDuration waiting.estimate now)
      (preGenesisLatest genesisAt openOffset closeOffset slotDuration waiting.estimate now)

def admitBeforeGenesis (rows queuedAt : Nat) (reads : Reads) (estimate : Nat) : Except ImportDeferralError Entered :=
  if estimate = durationMax then .error (.noFreeWindow estimate 0)
  else
    match gate.clock.timeUntilSlot reads.readAt 0 with
    | .error e => .error (.clock e)
    | .ok untilGenesis =>
      if estimate ≤ untilGenesis then
        let latestStart := (checkedInstant (reads.acquiredAt + (untilGenesis - estimate))).getD reads.acquiredAt
        .ok (.admitted ⟨reads.acquiredAt - queuedAt, 0, estimate, latestStart⟩)
      else
        match checkedInstant (reads.acquiredAt + untilGenesis) with
        | none => .error (.noFreeWindow estimate 0)
        | some genesisAt =>
          let slotDuration := gate.clock.slotDuration
          let due := fromMillis (dueMs (attestationBps gate.clock) (slotMs gate.clock))
          match checkedDuration (due + gate.cfg.attReserveMargin) with
          | none => .error (.clock .invalidSlotDuration)
          | some openOffset =>
            match checkedSub slotDuration gate.cfg.blockReserveMargin with
            | none => .error (.noFreeWindow estimate 0)
            | some closeOffset =>
              let window := closeOffset - openOffset
              if closeOffset ≤ openOffset ∨ window < estimate then .error (.noFreeWindow estimate window)
              else
                let bound := (checkedInstant (reads.acquiredAt + slotDuration)).getD reads.acquiredAt
                .ok (.waiting
                  ⟨rows, queuedAt, reads, estimate, window, bound, .genesis genesisAt openOffset closeOffset⟩)

def enter (rows queuedAt : Nat) (reads : Reads) : Except ImportDeferralError Entered :=
  let estimate := estimatedHold rows gate.cfg
  match gate.clock.currentSlot reads.slotAt with
  | .error (.beforeGenesis _ _) => gate.admitBeforeGenesis rows queuedAt reads estimate
  | .error e => .error (.clock e)
  | .ok slot =>
    let bound := (checkedInstant (reads.acquiredAt + gate.clock.slotDuration)).getD reads.acquiredAt
    let anchor := SlotAnchor.capture gate.clock slot reads.readAt reads.anchorAt
    let window := freeWindowLen anchor (attestationBps gate.clock) gate.cfg
    if window < estimate then .error (.noFreeWindow estimate window)
    else .ok (.waiting ⟨rows, queuedAt, reads, estimate, window, bound, .slot anchor⟩)

end

end ImportWindowGate

/-! ### Imports in any order -/

/-- Where a call of `admit` is. The last two hold the guard. An admission was decided on a read of the clock, and the
call returned with it some time later. -/
inductive ImportPhase where
  | idle
  | refused (error : ImportDeferralError)
  | queued (rows queuedAt : Nat)
  | waiting (waiting : Waiting)
  | admitted (rows : Nat) (reads : Reads) (decidedAt returnedAt : Nat) (admission : ImportAdmission)
  deriving DecidableEq

def ImportPhase.holdsGuard : ImportPhase → Bool
  | .waiting _ | .admitted _ _ _ _ _ => true
  | _ => false

structure Imports (ι : Type) where
  oneAtATime : Option ι
  phase : ι → ImportPhase

/-- What happens to the calls. A call may be dropped anywhere, and an admitted import ends. -/
inductive ImportEvent (ι : Type) where
  | call (i : ι) (rows now : Nat)
  | timeout (i : ι)
  | acquire (i : ι) (reads : Reads)
  | turn (i : ι) (now lag : Nat)
  | drop (i : ι)

namespace Imports

variable {ι : Type} [DecidableEq ι]

def new : Imports ι := ⟨none, fun _ => .idle⟩

def set (s : Imports ι) (owner : Option ι) (i : ι) (phase : ImportPhase) : Imports ι :=
  ⟨owner, Function.update s.phase i phase⟩

section

variable (gate : ImportWindowGate)

def queueBound : Option Nat := checkedDuration (gate.clock.slotDuration * queueWaitSlots)

def step (s : Imports ι) : ImportEvent ι → Imports ι
  | .call i rows now =>
    match s.phase i with
    | .idle | .refused _ =>
      if (queueBound gate).isSome then s.set s.oneAtATime i (.queued rows now)
      else s.set s.oneAtATime i (.refused (.clock .invalidSlotDuration))
    | _ => s
  | .timeout i =>
    match s.phase i, queueBound gate with
    | .queued _ _, some bound => s.set s.oneAtATime i (.refused (.queueSaturated queueWaitSlots (max (asSecs bound) 1)))
    | _, _ => s
  | .acquire i reads =>
    match s.phase i, s.oneAtATime with
    | .queued rows queuedAt, none =>
      match gate.enter rows queuedAt reads with
      | .error e => s.set none i (.refused e)
      | .ok (.waiting waiting) => s.set (some i) i (.waiting waiting)
      | .ok (.admitted admission) => s.set (some i) i (.admitted rows reads reads.acquiredAt reads.anchorAt admission)
    | _, _ => s
  | .turn i now lag =>
    match s.phase i with
    | .waiting waiting =>
      if now < waiting.reads.anchorAt then s
      else
        match gate.turn waiting now with
        | .sleepUntil _ => s
        | .refuse => s.set none i (.refused (.noFreeWindow waiting.estimate waiting.window))
        | .admitted latestStart =>
          s.set s.oneAtATime i (.admitted waiting.rows waiting.reads now (now + lag)
            ⟨now + lag - waiting.queuedAt, waiting.window, waiting.estimate, latestStart⟩)
    | _ => s
  | .drop i =>
    match s.phase i with
    | .waiting _ | .admitted _ _ _ _ _ => s.set none i .idle
    | .queued _ _ => s.set s.oneAtATime i .idle
    | _ => s

def run (s : Imports ι) (events : List (ImportEvent ι)) : Imports ι :=
  events.foldl (step gate) s

end

end Imports

/-! ### Windows that a hold fits in -/

theorem checkedInstant_eq_some {n m : Nat} (h : checkedInstant n = some m) : n = m := by
  obtain ⟨-, heq⟩ := ite_none_right_eq_some.mp h
  exact Option.some.inj heq

theorem checkedDuration_eq_some {n m : Nat} (h : checkedDuration n = some m) : n = m := by
  obtain ⟨-, heq⟩ := ite_none_right_eq_some.mp h
  exact Option.some.inj heq

theorem checkedSub_eq_some {n k m : Nat} (h : checkedSub n k = some m) : m + k = n := by
  obtain ⟨hle, heq⟩ := ite_none_right_eq_some.mp h
  cases heq
  exact Nat.sub_add_cancel hle

section

variable {α : Type} {bounds : Nat → Option (Nat × Nat)} {estimate now : Nat}

theorem fitIn_eq_bind (answer : Nat → Nat → Option α) (aheads : List Nat) : fitIn bounds estimate now answer aheads =
      (fitIn bounds estimate now (fun startAt closing => some (startAt, closing)) aheads).bind
        fun found => answer found.1 found.2 := by
  induction aheads with
  | nil => rfl
  | cons ahead rest ih =>
    unfold fitIn
    cases bounds ahead with
    | none => rfl
    | some window =>
      simp only [bind_eq_bind, bind_some]
      split_ifs
      · exact ih
      · cases checkedInstant (max now window.1 + estimate) with
        | none => rfl
        | some ending =>
          simp only [bind_some]
          split_ifs
          · rfl
          · exact ih

theorem fitIn_eq_some {aheads : List Nat} {startAt closing : Nat}
    (h : fitIn bounds estimate now (fun startAt closing => some (startAt, closing)) aheads = some (startAt, closing)) :
    ∃ ahead ∈ aheads, ∃ opening, bounds ahead = some (opening, closing) ∧ startAt = max now opening ∧
      startAt < closing ∧ startAt + estimate ≤ closing := by
  induction aheads with
  | nil => cases h
  | cons ahead rest ih =>
    obtain ⟨⟨opening, closing'⟩, hbounds, h⟩ := bind_eq_some_iff.mp h
    simp only at h
    split_ifs at h with hclosed
    · obtain ⟨ahead', hmem, hfound⟩ := ih h
      exact ⟨ahead', .tail _ hmem, hfound⟩
    · obtain ⟨ending, hending, h⟩ := bind_eq_some_iff.mp h
      obtain rfl := checkedInstant_eq_some hending
      split_ifs at h with hfits
      · cases h
        exact ⟨ahead, .head _, opening, hbounds, rfl, Nat.lt_of_not_le hclosed, hfits⟩
      · obtain ⟨ahead', hmem, hfound⟩ := ih h
        exact ⟨ahead', .tail _ hmem, hfound⟩

end

/-- A turn that admits: `now` is in one of the windows with room for the hold, and the latest start is the one that
ends with the window. -/
def Admits (bounds : Nat → Option (Nat × Nat)) (estimate bound now latestStart : Nat) : Prop :=
  ∃ ahead, ahead ≤ 1 ∧ ∃ opening closing, bounds ahead = some (opening, closing) ∧ opening ≤ now ∧ now < closing ∧
    now ≤ bound ∧ now + estimate ≤ closing ∧ latestStart + estimate = closing

variable {latestStart : Nat}

theorem turnAt_eq_admit {bound now : Nat} {startAt latest : Option Nat}
    (h : turnAt bound now startAt latest = .admitted latestStart) :
    ∃ start, startAt = some start ∧ start ≤ bound ∧ start ≤ now ∧ latestStart = latest.getD now := by
  match startAt with
  | none => cases h
  | some start =>
    simp only [turnAt] at h
    split_ifs at h with hbound hnow
    cases h
    exact ⟨start, rfl, Nat.le_of_not_lt hbound, Nat.le_of_not_lt hnow, rfl⟩

theorem turnAt_eq_sleepUntil {bound now target : Nat} {startAt latest : Option Nat}
    (h : turnAt bound now startAt latest = .sleepUntil target) : target ≤ bound := by
  match startAt with
  | none => cases h
  | some start =>
    simp only [turnAt] at h
    split_ifs at h with hbound hnow
    cases h
    exact Nat.le_of_not_lt hbound

theorem admits_of_turnAt {bounds : Nat → Option (Nat × Nat)} {estimate bound now : Nat}
    {startAt latest : Option Nat} (h : turnAt bound now startAt latest = .admitted latestStart)
    (hfound : ∀ start, startAt = some start → ∃ closing,
      fitIn bounds estimate now (fun startAt closing => some (startAt, closing)) [0, 1] = some (start, closing) ∧
        latest = checkedSub closing estimate) : Admits bounds estimate bound now latestStart := by
  obtain ⟨start, hstart, hbound, hnow, hlatest⟩ := turnAt_eq_admit h
  obtain ⟨closing, hfit, hsub⟩ := hfound start hstart
  obtain ⟨ahead, hahead, opening, hbounds, hmax, hlt, hle⟩ := fitIn_eq_some hfit
  have hfits : estimate ≤ closing := by omega
  rw [hsub, checkedSub, if_pos hfits, getD_some] at hlatest
  simp only [List.mem_cons, List.not_mem_nil, or_false] at hahead
  exact ⟨ahead, by omega, opening, closing, hbounds, by omega, by omega, by omega, by omega, by omega⟩

variable {waiting : Waiting}

open ImportWindowGate

theorem turn_slot_admits {gate : ImportWindowGate} {anchor : SlotAnchor} {now : Nat}
    (hplace : waiting.place = .slot anchor) (h : gate.turn waiting now = .admitted latestStart) :
    Admits (windowBounds anchor (attestationBps gate.clock) gate.cfg) waiting.estimate waiting.bound now
      latestStart := by
  rw [turn, hplace] at h
  refine admits_of_turnAt h fun start hstart => ?_
  rw [earliestStart, fitIn_eq_bind] at hstart
  obtain ⟨⟨start', closing⟩, hfit, hsome⟩ := bind_eq_some_iff.mp hstart
  cases hsome
  refine ⟨closing, hfit, ?_⟩
  rw [latestStartInFit, fitIn_eq_bind, hfit, bind_some]

theorem turn_genesis_admits {gate : ImportWindowGate} {genesisAt openOffset closeOffset : Nat}
    {now : Nat} (hplace : waiting.place = .genesis genesisAt openOffset closeOffset)
    (h : gate.turn waiting now = .admitted latestStart) :
    Admits (preGenesisBounds genesisAt openOffset closeOffset gate.clock.slotDuration) waiting.estimate waiting.bound
      now latestStart := by
  rw [turn, hplace] at h
  refine admits_of_turnAt h fun start hstart => ?_
  rw [preGenesisStart, preGenesisFit, fitIn_eq_bind] at hstart
  obtain ⟨⟨start', latest⟩, hpair, hfst⟩ := map_eq_some_iff.mp hstart
  obtain ⟨⟨start'', closing⟩, hfit, hanswer⟩ := bind_eq_some_iff.mp hpair
  obtain ⟨latest', hsub, heq⟩ := map_eq_some_iff.mp hanswer
  cases heq
  cases hfst
  refine ⟨closing, hfit, ?_⟩
  rw [preGenesisLatest, preGenesisFit, fitIn_eq_bind, hfit, bind_some, hsub, map_some, map_some]

theorem windowBounds_eq_some {anchor : SlotAnchor} {bps ahead opening closing : Nat} {cfg : ImportWindowConfig}
    (h : windowBounds anchor bps cfg ahead = some (opening, closing)) :
    opening = anchor.start + fromMillis (dueMs bps anchor.slotDurationMs) + cfg.attReserveMargin +
        fromMillis (anchor.slotDurationMs * ahead) ∧
      closing + cfg.blockReserveMargin = anchor.start + fromMillis anchor.slotDurationMs +
        fromMillis (anchor.slotDurationMs * ahead) := by
  simp only [windowBounds, bind_eq_bind, bind_eq_some_iff] at h
  obtain ⟨shift, hshift, opening', hopening', opening'', hopening'', closing', hclosing', closing'', hclosing'', h⟩ := h
  obtain ⟨rfl, -⟩ := checkedU64_eq_some hshift
  obtain rfl := checkedInstant_eq_some hopening'
  obtain rfl := checkedInstant_eq_some hopening''
  have hclosing' := checkedSub_eq_some hclosing'
  obtain rfl := checkedInstant_eq_some hclosing''
  split_ifs at h
  cases h
  refine ⟨rfl, ?_⟩
  unfold SlotAnchor.slotEnd at hclosing'
  omega

theorem preGenesisBounds_eq_some {genesisAt openOffset closeOffset slotDuration ahead opening closing : Nat}
    (h : preGenesisBounds genesisAt openOffset closeOffset slotDuration ahead = some (opening, closing)) :
    opening = genesisAt + openOffset + slotDuration * ahead ∧
      closing = genesisAt + closeOffset + slotDuration * ahead := by
  simp only [preGenesisBounds, bind_eq_bind, bind_eq_some_iff] at h
  obtain ⟨shift, hshift, opening', hopening', opening'', hopening'', closing', hclosing', closing'', hclosing'', h⟩ := h
  obtain rfl := checkedDuration_eq_some hshift
  obtain rfl := checkedInstant_eq_some hopening'
  obtain rfl := checkedInstant_eq_some hopening''
  obtain rfl := checkedInstant_eq_some hclosing'
  obtain rfl := checkedInstant_eq_some hclosing''
  cases h
  exact ⟨rfl, rfl⟩

/-! ### Where the windows are -/

def slotStart (clock : SlotClock) (slot : Nat) : Nat := 10 ^ 9 * (clock.genesisTime + slot * asSecs clock.slotDuration)

def Reads.gap (reads : Reads) : Nat := reads.anchorAt - reads.acquiredAt

/-- What is from `since` to `til` lies in the free window of a slot. -/
def Inside (gate : ImportWindowGate) (slot since til : Nat) : Prop :=
  slotStart gate.clock slot + fromMillis (dueMs (attestationBps gate.clock) (asMillis gate.clock.slotDuration)) +
      gate.cfg.attReserveMargin ≤ since ∧
    til + gate.cfg.blockReserveMargin ≤ slotStart gate.clock (slot + 1)

/-- An admission with `hold`. But for the time from the decision to the return, the call returns by `latestStart` and
within a slot of the mutex. A hold that starts between the decision and `latestStart` lies in the free window of a slot,
or before genesis, but for the millisecond that is in `hold` and the time that passed while the clocks were read. -/
def Fitting (gate : ImportWindowGate) (reads : Reads) (hold decidedAt returnedAt latestStart : Nat) : Prop :=
  decidedAt ≤ returnedAt ∧ returnedAt ≤ latestStart + (returnedAt - decidedAt) ∧
    returnedAt ≤ reads.acquiredAt + gate.clock.slotDuration + (returnedAt - decidedAt) ∧
    ((∃ slot, ∀ s, decidedAt ≤ s → s ≤ latestStart →
        Inside gate slot (s + reads.gap) (s + hold - (slotQuantumAllowance + reads.gap))) ∨
      ∀ s, s ≤ latestStart → s + hold - slotQuantumAllowance ≤ slotStart gate.clock 0)

/-- Whole seconds, and twice the slot is a `u64` of milliseconds. -/
structure Regular (clock : SlotClock) : Prop where
  wholeSeconds : clock.WholeSeconds
  twice_lt : 2 * asMillis clock.slotDuration < u64Size

section

variable {gate : ImportWindowGate} {clock : SlotClock} {reads : Reads} {rows queuedAt slot now : Nat}

theorem Regular.slotMs_eq (h : Regular clock) : slotMs clock = asMillis clock.slotDuration := by
  have htwice := h.twice_lt
  rw [slotMs, checkedU64_of_lt (by omega), getD_some]

theorem Regular.fromMillis_eq (h : Regular clock) (k : Nat) :
    fromMillis (asMillis clock.slotDuration * k) = clock.slotDuration * k := by
  have hduration : clock.slotDuration = 10 ^ 9 * asSecs clock.slotDuration := h.wholeSeconds
  have hmillis : clock.slotDuration = 10 ^ 6 * asMillis clock.slotDuration := by
    rw [asMillis_slotDuration h.wholeSeconds]
    omega
  rw [fromMillis, ← mul_assoc, ← hmillis]

theorem Regular.slotStart_add (h : Regular clock) (slot k : Nat) :
    slotStart clock (slot + k) = slotStart clock slot + clock.slotDuration * k := by
  have hduration : clock.slotDuration = 10 ^ 9 * asSecs clock.slotDuration := h.wholeSeconds
  unfold slotStart
  generalize asSecs clock.slotDuration = secs at *
  rw [hduration]
  ring

theorem Reads.currentTimeMs_bounds (reads : Reads) : 10 ^ 6 * SlotClock.currentTimeMs reads.readAt ≤ reads.readAt ∧
      reads.readAt < 10 ^ 6 * SlotClock.currentTimeMs reads.readAt + 10 ^ 6 := by
  rw [currentTimeMs_eq reads.readAt_lt, asMillis]
  omega

/-- The anchor is at most a millisecond and the time of the reads after the start of the slot; or two slots have gone
by since, and the clamp has moved it. -/
theorem Regular.capture_near (h : Regular clock) (hslot : clock.currentSlot reads.slotAt = .ok slot) :
    let anchor := SlotAnchor.capture clock slot reads.readAt reads.anchorAt
    anchor.start + clock.slotDuration * 2 ≤ reads.anchorAt ∨
      slotStart clock slot ≤ anchor.start ∧ anchor.start < slotStart clock slot + 10 ^ 6 + reads.gap := by
  intro anchor
  obtain ⟨hms, hmsLt⟩ := reads.currentTimeMs_bounds
  have hslotAt := reads.slotAt_le
  have hreadAt := reads.readAt_le
  have hacquiredAt := reads.acquiredAt_le
  have hbase := (currentSlot_bounds hslot).1
  have hsecs : asSecs reads.slotAt ≤ asSecs reads.readAt := Nat.div_le_div_right reads.slotAt_le
  have hfits : clock.Fits slot := by
    have hlt := reads.readAt_lt
    unfold SlotClock.Fits
    omega
  have hmillis : 1000 * asSecs reads.readAt ≤ currentTimeMs reads.readAt := by
    rw [currentTimeMs_eq reads.readAt_lt, asSecs, asMillis]
    omega
  have htwice : clock.slotDuration * 2 = 10 ^ 6 * (2 * asMillis clock.slotDuration) := by
    rw [← h.fromMillis_eq 2, fromMillis, Nat.mul_comm 2]
  have hstart : anchor.start = anchoredStart reads.anchorAt
      (min (currentTimeMs reads.readAt - clock.slotStartMs slot) (2 * asMillis clock.slotDuration)) := by
    rw [← u64_of_lt h.twice_lt, ← h.slotMs_eq]
    rfl
  rw [hfits.slotStartMs_eq, anchoredStart, checkedSub] at hstart
  unfold fromMillis at hstart
  unfold slotStart Reads.gap
  rw [if_pos (by omega), getD_some] at hstart
  omega

theorem getD_checkedInstant {n k : Nat} (h : k ≤ n) : k ≤ (checkedInstant n).getD k ∧
    (checkedInstant n).getD k ≤ n := by
  cases hchecked : checkedInstant n with
  | none => exact ⟨le_rfl, h⟩
  | some m =>
    obtain rfl := checkedInstant_eq_some hchecked
    exact ⟨h, le_rfl⟩

/-- The time until genesis, counted from when the mutex was taken, ends a millisecond late at most. -/
theorem genesisAt_near {untilGenesis : Nat} (hbefore : asSecs reads.slotAt < clock.genesisTime)
    (h : clock.timeUntilSlot reads.readAt 0 = .ok untilGenesis) :
    slotStart clock 0 ≤ reads.acquiredAt + untilGenesis + reads.gap ∧
      reads.acquiredAt + untilGenesis < slotStart clock 0 + 10 ^ 6 := by
  obtain ⟨hms, hmsLt⟩ := reads.currentTimeMs_bounds
  have hslotAt := reads.slotAt_le
  have hreadAt := reads.readAt_le
  have hacquiredAt := reads.acquiredAt_le
  have huntil := timeUntilSlot_eq_ok h
  unfold fromMillis at huntil
  unfold slotStart Reads.gap
  unfold asSecs at hbefore
  omega

theorem fitting_of_admits {base bound estimate : Nat} {bounds : Nat → Option (Nat × Nat)} (h : Regular gate.clock)
    (hlow : slotStart gate.clock slot ≤ base + reads.gap)
    (hhigh : base < slotStart gate.clock slot + 10 ^ 6 + reads.gap)
    (hbounds : ∀ ahead opening closing, bounds ahead = some (opening, closing) →
      opening = base + fromMillis (dueMs (attestationBps gate.clock) (asMillis gate.clock.slotDuration)) +
          gate.cfg.attReserveMargin + gate.clock.slotDuration * ahead ∧
        closing + gate.cfg.blockReserveMargin = base + gate.clock.slotDuration + gate.clock.slotDuration * ahead)
    (hbound : bound ≤ reads.acquiredAt + gate.clock.slotDuration)
    (hadmits : Admits bounds estimate bound now latestStart) {returnedAt : Nat} (hreturned : now ≤ returnedAt) :
    Fitting gate reads estimate now returnedAt latestStart := by
  obtain ⟨ahead, -, opening, closing, hwindow, hopening, -, hnow, hfits, hlatest⟩ := hadmits
  obtain ⟨hopens, hcloses⟩ := hbounds ahead opening closing hwindow
  have hstart := h.slotStart_add slot ahead
  have hnext := h.slotStart_add (slot + ahead) 1
  refine ⟨hreturned, by omega, by omega, .inl ⟨slot + ahead, fun s hs hsLatest => ⟨?_, ?_⟩⟩⟩
  · omega
  · unfold slotQuantumAllowance fromMillis
    omega

/-- A waiting call sleeps for a slot at most, and is admitted only where it fits. -/
structure Sound (gate : ImportWindowGate) (waiting : Waiting) : Prop where
  estimate : estimatedHoldNs waiting.rows gate.cfg = some waiting.estimate
  sleeps : ∀ now startAt, gate.turn waiting now = .sleepUntil startAt →
    startAt ≤ waiting.reads.acquiredAt + gate.clock.slotDuration
  admits : ∀ now latestStart returnedAt, waiting.reads.anchorAt ≤ now → gate.turn waiting now = .admitted latestStart →
    now ≤ returnedAt → Fitting gate waiting.reads waiting.estimate now returnedAt latestStart

theorem turn_sleepUntil_le {startAt : Nat} (h : gate.turn waiting now = .sleepUntil startAt) :
    startAt ≤ waiting.bound := by
  unfold turn at h
  split at h
  · exact turnAt_eq_sleepUntil h
  · exact turnAt_eq_sleepUntil h

theorem freeWindowLen_lt (anchor : SlotAnchor) (bps : Nat) (cfg : ImportWindowConfig)
    (h : anchor.slotDurationMs < u64Size) : freeWindowLen anchor bps cfg < durationMax := by
  unfold freeWindowLen
  split
  · next opening closing hbounds =>
    obtain ⟨hopening, hclosing⟩ := windowBounds_eq_some hbounds
    unfold fromMillis at hopening hclosing
    unfold durationMax
    omega
  · exact lt_durationMax (by decide)

theorem estimatedHoldNs_of_lt {cfg : ImportWindowConfig} (h : estimatedHold rows cfg < durationMax) :
    estimatedHoldNs rows cfg = some (estimatedHold rows cfg) := by
  rcases estimatedHold_cases rows cfg with heq | ⟨hns, -⟩
  · exact absurd heq h.ne
  · exact hns

theorem sound_slot (h : Regular gate.clock) (hslot : gate.clock.currentSlot reads.slotAt = .ok slot)
    {window bound : Nat} (hlt : estimatedHold rows gate.cfg < durationMax)
    (hbound : bound ≤ reads.acquiredAt + gate.clock.slotDuration) :
    Sound gate ⟨rows, queuedAt, reads, estimatedHold rows gate.cfg, window, bound,
      .slot (.capture gate.clock slot reads.readAt reads.anchorAt)⟩ where
  estimate := estimatedHoldNs_of_lt hlt
  sleeps now startAt hturn := (turn_sleepUntil_le hturn).trans hbound
  admits now latestStart returnedAt hnow hturn hreturned := by
    have hadmits := turn_slot_admits rfl hturn
    have hms : (SlotAnchor.capture gate.clock slot reads.readAt reads.anchorAt).slotDurationMs =
        asMillis gate.clock.slotDuration := h.slotMs_eq
    have hbounds : ∀ ahead opening closing,
        windowBounds (.capture gate.clock slot reads.readAt reads.anchorAt) (attestationBps gate.clock) gate.cfg ahead =
          some (opening, closing) → _ ∧ _ := fun ahead opening closing hwindow => by
      have heq := windowBounds_eq_some hwindow
      have hone := h.fromMillis_eq 1
      rw [mul_one, mul_one] at hone
      rw [hms, h.fromMillis_eq ahead, hone] at heq
      exact heq
    rcases h.capture_near hslot with hclamped | ⟨hlow, hhigh⟩
    · -- both windows are over
      obtain ⟨ahead, hahead, opening, closing, hwindow, -, hclosing, -⟩ := hadmits
      have hcloses := (hbounds ahead opening closing hwindow).2
      have hmul : gate.clock.slotDuration * ahead ≤ gate.clock.slotDuration * 1 := mul_le_mul_left _ hahead
      change reads.anchorAt ≤ now at hnow
      omega
    · exact fitting_of_admits h (hlow.trans (le_add_right _ _)) hhigh hbounds hbound hadmits hreturned

theorem sound_genesis (h : Regular gate.clock) (hbefore : asSecs reads.slotAt < gate.clock.genesisTime)
    {untilGenesis closeOffset window bound : Nat} (huntil : gate.clock.timeUntilSlot reads.readAt 0 = .ok untilGenesis)
    (hclose : closeOffset + gate.cfg.blockReserveMargin = gate.clock.slotDuration)
    (hlt : estimatedHold rows gate.cfg < durationMax) (hbound : bound ≤ reads.acquiredAt + gate.clock.slotDuration) :
    Sound gate ⟨rows, queuedAt, reads, estimatedHold rows gate.cfg, window, bound,
      .genesis (reads.acquiredAt + untilGenesis)
        (fromMillis (dueMs (attestationBps gate.clock) (slotMs gate.clock)) + gate.cfg.attReserveMargin)
        closeOffset⟩ where
  estimate := estimatedHoldNs_of_lt hlt
  sleeps now startAt hturn := (turn_sleepUntil_le hturn).trans hbound
  admits now latestStart returnedAt hnow hturn hreturned := by
    obtain ⟨hlow, hhigh⟩ := genesisAt_near hbefore huntil
    refine fitting_of_admits h hlow (by omega) (fun ahead opening closing hwindow => ?_) hbound
      (turn_genesis_admits rfl hturn) hreturned
    obtain ⟨hopening, hclosing⟩ := preGenesisBounds_eq_some hwindow
    rw [h.slotMs_eq] at hopening
    omega

theorem enter_sound (h : Regular gate.clock) {entered : Entered}
    (henter : gate.enter rows queuedAt reads = .ok entered) :
    match entered with
    | .waiting waiting => Sound gate waiting
    | .admitted admission => estimatedHoldNs rows gate.cfg = some admission.estimatedHold ∧
        Fitting gate reads admission.estimatedHold reads.acquiredAt reads.anchorAt admission.latestStart := by
  have hbound : (checkedInstant (reads.acquiredAt + gate.clock.slotDuration)).getD reads.acquiredAt ≤
      reads.acquiredAt + gate.clock.slotDuration := (getD_checkedInstant (Nat.le_add_right _ _)).2
  unfold enter at henter
  simp only at henter
  split at henter
  · next currentTime genesisTime hslot =>
    have hbefore : asSecs reads.slotAt < gate.clock.genesisTime := by
      by_contra hle
      rw [currentSlot_eq_ok (Nat.le_of_not_lt hle)] at hslot
      cases hslot
    unfold admitBeforeGenesis at henter
    split_ifs at henter with hmax
    have hlt := Nat.lt_of_le_of_ne (estimatedHold_le rows gate.cfg) hmax
    split at henter
    · cases henter
    · next untilGenesis huntil =>
      split_ifs at henter with hfits
      · cases henter
        obtain ⟨hstart, hlatest⟩ := getD_checkedInstant
          (Nat.le_add_right reads.acquiredAt (untilGenesis - estimatedHold rows gate.cfg))
        have hhigh := (genesisAt_near hbefore huntil).2
        have hreturned := reads.acquiredAt_le.trans (reads.slotAt_le.trans reads.readAt_le)
        dsimp only
        refine ⟨estimatedHoldNs_of_lt hlt, hreturned, by omega, by omega, .inr fun s hs => ?_⟩
        have hle := hs.trans hlatest
        show s + estimatedHold rows gate.cfg - 10 ^ 6 * 1 ≤ slotStart gate.clock 0
        omega
      · split at henter
        · cases henter
        · next genesisAt hgenesis =>
          obtain rfl := checkedInstant_eq_some hgenesis
          simp only at henter
          split at henter
          · cases henter
          · next openOffset hopen =>
            obtain rfl := checkedDuration_eq_some hopen
            split at henter
            · cases henter
            · next closeOffset hclose =>
              split_ifs at henter
              cases henter
              exact sound_genesis h hbefore huntil (checkedSub_eq_some hclose) hlt hbound
  · cases henter
  · next slot hslot =>
    split_ifs at henter with hwindow
    cases henter
    refine sound_slot h hslot (Nat.lt_of_le_of_lt (Nat.le_of_not_lt hwindow) (freeWindowLen_lt _ _ _ ?_)) hbound
    have htwice := h.twice_lt
    show slotMs gate.clock < u64Size
    rw [h.slotMs_eq]
    omega

end

/-! ### Imports one at a time -/

namespace Imports

variable {ι : Type} {gate : ImportWindowGate} {s : Imports ι}

def Keeps (gate : ImportWindowGate) : ImportPhase → Prop
  | .waiting waiting => Sound gate waiting
  | .admitted rows reads decidedAt returnedAt admission =>
      estimatedHoldNs rows gate.cfg = some admission.estimatedHold ∧
      Fitting gate reads admission.estimatedHold decidedAt returnedAt admission.latestStart
  | _ => True

/-- The owner of the mutex is the one call that holds the guard, and each call is where it may be. -/
structure Inv (gate : ImportWindowGate) (s : Imports ι) : Prop where
  owns : Owns ImportPhase.holdsGuard s.phase s.oneAtATime
  keeps : ∀ i, Keeps gate (s.phase i)

theorem Inv.new : Inv gate (new : Imports ι) := ⟨.of_none fun _ => rfl, fun _ => trivial⟩

variable [DecidableEq ι]

theorem Inv.set (h : Inv gate s) {owner : Option ι} {i : ι} {phase : ImportPhase}
    (howns : Owns ImportPhase.holdsGuard (Function.update s.phase i phase) owner) (hkeeps : Keeps gate phase) :
    Inv gate (s.set owner i phase) where
  owns := howns
  keeps j := by
    by_cases hj : j = i
    · subst hj
      simpa [Imports.set] using hkeeps
    · simpa [Imports.set, Function.update_of_ne hj] using h.keeps j

theorem Inv.step (hregular : Regular gate.clock) (h : Inv gate s) (event : ImportEvent ι) :
    Inv gate (s.step gate event) := by
  cases event with
  | call i rows now =>
    unfold Imports.step
    simp only
    split
    · next hphase =>
      split_ifs
      · exact h.set (h.owns.move hphase rfl) trivial
      · exact h.set (h.owns.move hphase rfl) trivial
    · next hphase =>
      split_ifs
      · exact h.set (h.owns.move hphase rfl) trivial
      · exact h.set (h.owns.move hphase rfl) trivial
    · exact h
  | timeout i =>
    unfold Imports.step
    simp only
    split
    · next hphase _ => exact h.set (h.owns.move hphase rfl) trivial
    · exact h
  | acquire i reads =>
    unfold Imports.step
    simp only
    split
    · next rows queuedAt hphase hfree =>
      have hnone : Owns ImportPhase.holdsGuard s.phase none := hfree ▸ h.owns
      split
      · exact h.set (hnone.move hphase rfl) trivial
      · next waiting henter => exact h.set (hnone.acquire rfl) (enter_sound hregular henter)
      · next admission henter => exact h.set (hnone.acquire rfl) (enter_sound hregular henter)
    · exact h
  | turn i now lag =>
    unfold Imports.step
    simp only
    split
    · next waiting hphase =>
      have hsound : Sound gate waiting := by
        have hkeeps := h.keeps i
        rwa [hphase] at hkeeps
      split_ifs with hnow
      · exact h
      split
      · exact h
      · exact h.set (h.owns.release hphase rfl rfl) trivial
      · next latestStart hturn =>
        exact h.set (h.owns.move hphase rfl)
          ⟨hsound.estimate, hsound.admits now latestStart _ (Nat.le_of_not_lt hnow) hturn (Nat.le_add_right now lag)⟩
    · exact h
  | drop i =>
    unfold Imports.step
    simp only
    split
    · next hphase => exact h.set (h.owns.release hphase rfl rfl) trivial
    · next hphase => exact h.set (h.owns.release hphase rfl rfl) trivial
    · next hphase => exact h.set (h.owns.move hphase rfl) trivial
    · exact h

theorem Inv.run (hregular : Regular gate.clock) (h : Inv gate s) (events : List (ImportEvent ι)) :
    Inv gate (s.run gate events) := by
  induction events generalizing s with
  | nil => exact h
  | cons event events ih => exact ih (h.step hregular event)

/-- Whatever imports are called, wait, end or are dropped: no two hold the guard, each admitted one fits and was
decided on within a slot of the mutex, and none sleeps for longer. -/
theorem import_admission_fits (gate : ImportWindowGate) (hregular : Regular gate.clock) :
    (∀ events : List (ImportEvent ι), let s := (new : Imports ι).run gate events
      (∀ i j, (s.phase i).holdsGuard = true → (s.phase j).holdsGuard = true → i = j) ∧
      (∀ i rows reads decidedAt returnedAt admission, s.phase i = .admitted rows reads decidedAt returnedAt admission →
        estimatedHoldNs rows gate.cfg = some admission.estimatedHold ∧
          Fitting gate reads admission.estimatedHold decidedAt returnedAt admission.latestStart) ∧
      ∀ i waiting now startAt, s.phase i = .waiting waiting → gate.turn waiting now = .sleepUntil startAt →
        startAt ≤ waiting.reads.acquiredAt + gate.clock.slotDuration) ∧
      (∀ rows rows', rows ≤ rows' → estimatedHold rows gate.cfg ≤ estimatedHold rows' gate.cfg) := by
  refine ⟨fun events => ?_, fun rows rows' hle => estimatedHold_mono hle gate.cfg⟩
  have hinv : Inv gate ((new : Imports ι).run gate events) := Inv.new.run hregular events
  refine ⟨fun i j => hinv.owns.unique, fun i rows reads decidedAt returnedAt admission hphase => ?_,
    fun i waiting now startAt hphase hturn => ?_⟩
  · have hkeeps := hinv.keeps i
    rwa [hphase] at hkeeps
  · have hkeeps := hinv.keeps i
    rw [hphase] at hkeeps
    exact hkeeps.sleeps now startAt hturn

def sampleGate : ImportWindowGate := ⟨SlotClock.mainnetClock, .measured⟩

def sampleInstant : Nat := 1606824028000900000

def sampleReads : Reads :=
  ⟨sampleInstant, sampleInstant, sampleInstant, sampleInstant, le_rfl, le_rfl, le_rfl, by decide⟩

def sampleEvents : List (ImportEvent Unit) :=
  [.call () 1 sampleInstant, .acquire () sampleReads, .turn () sampleInstant 0]

def sampleAdmission : ImportAdmission := ⟨0, 7301000000, 39592153, 1606824034761307847⟩

theorem import_admission_fits_sample : ((new : Imports Unit).run sampleGate sampleEvents).phase () =
        .admitted 1 sampleReads sampleInstant sampleInstant sampleAdmission ∧
      Fitting sampleGate sampleReads sampleAdmission.estimatedHold sampleInstant sampleInstant
        sampleAdmission.latestStart := by
  have hphase : ((new : Imports Unit).run sampleGate sampleEvents).phase () =
      .admitted 1 sampleReads sampleInstant sampleInstant sampleAdmission := by decide +kernel
  have hrun := (@import_admission_fits Unit _ sampleGate ⟨by decide, by decide⟩).1 sampleEvents
  exact ⟨hphase, (hrun.2.1 () 1 sampleReads sampleInstant sampleInstant sampleAdmission hphase).2⟩

/-- The window of the admission ends nine tenths of a millisecond after that of the slot. -/
theorem sub_millisecond_overrun : ((new : Imports Unit).run sampleGate sampleEvents).phase () =
        .admitted 1 sampleReads sampleInstant sampleInstant sampleAdmission ∧
      (∀ slot, ¬Inside sampleGate slot sampleAdmission.latestStart
        (sampleAdmission.latestStart + sampleAdmission.estimatedHold)) ∧
      slotStart sampleGate.clock 0 < sampleAdmission.latestStart := by
  refine ⟨by decide +kernel, fun slot hinside => ?_, by decide⟩
  obtain ⟨hsince, htil⟩ := hinside
  match slot with
  | 0 => revert htil; decide
  | slot + 1 =>
    have hlater : slotStart sampleGate.clock 1 ≤ slotStart sampleGate.clock (slot + 1) :=
      Nat.mul_le_mul_left _ (Nat.add_le_add_left (Nat.mul_le_mul_right _ (Nat.le_add_left 1 slot)) _)
    have hlt : sampleAdmission.latestStart < slotStart sampleGate.clock 1 := by decide
    omega

end Imports

end Rvc.KeymanagerAdapters.ImportWindow
