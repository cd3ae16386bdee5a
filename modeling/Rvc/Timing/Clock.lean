import Rvc.EthTypes.Fork
import Rvc.Lib.Except

/-!
# The slot clock

`SlotClock` of the `timing` crate, as `SystemSlotClock` implements it. A duration is a number of nanoseconds, as is the
time since the epoch, which the methods that read the clock take as `now`. Slot numbers and slot starts are computed
from whole seconds of the slot duration, and the deadlines inside a slot from its milliseconds.

The operators of `u64` wrap, as they do in a release build.
-/

namespace Rvc.Timing

open Rvc.EthTypes Rvc.Lib Nat

def u64Size : Nat := 2 ^ 64

def u64 (n : Nat) : Nat := n % u64Size

def checkedU64 (n : Nat) : Option Nat := if n < u64Size then some n else none

def saturatedU64 (n : Nat) : Nat := min n (u64Size - 1)

theorem u64_of_lt {n : Nat} (h : n < u64Size) : u64 n = n := Nat.mod_eq_of_lt h

theorem checkedU64_of_lt {n : Nat} (h : n < u64Size) : checkedU64 n = some n := if_pos h

theorem checkedU64_eq_some {n m : Nat} (h : checkedU64 n = some m) : n = m ∧ m < u64Size := by
  obtain ⟨hlt, heq⟩ := Option.ite_none_right_eq_some.mp h
  cases heq
  exact ⟨rfl, hlt⟩

theorem saturatedU64_of_lt {n : Nat} (h : n < u64Size) : saturatedU64 n = n := Nat.min_eq_left (Nat.le_sub_one_of_lt h)

def asSecs (duration : Nat) : Nat := duration / 10 ^ 9

def asMillis (duration : Nat) : Nat := duration / 10 ^ 6

def fromMillis (ms : Nat) : Nat := 10 ^ 6 * ms

/-! ### Deadlines -/

structure DeadlineBps where
  attestation : Nat
  aggregate : Nat
  syncMessage : Nat
  contribution : Nat
  payload : Nat
  payloadAttestation : Nat
  deriving DecidableEq

def attestationDueBps : Nat := 3333

def aggregateDueBps : Nat := 6667

def DeadlineBps.default : DeadlineBps :=
  ⟨attestationDueBps, aggregateDueBps, attestationDueBps, aggregateDueBps, aggregateDueBps, aggregateDueBps⟩

structure DeadlineSchedule where
  preGloas : DeadlineBps
  gloas : DeadlineBps
  deriving DecidableEq

namespace DeadlineSchedule

def uniform (deadlines : DeadlineBps) : DeadlineSchedule := ⟨deadlines, deadlines⟩

def forFork (schedule : DeadlineSchedule) (fork : ForkName) : DeadlineBps :=
  if ForkName.gloas ≤ fork then schedule.gloas else schedule.preGloas

end DeadlineSchedule

def basisPoints : Nat := 10000

def dueMs (bps slotDurationMs : Nat) : Nat := u64 (bps * slotDurationMs) / basisPoints

/-! ### The clock -/

inductive TimingError where
  | beforeGenesis (currentTime genesisTime : Nat)
  | invalidSlotDuration
  | timeOverflow
  deriving DecidableEq

structure SlotClock where
  genesisTime : Nat
  slotDuration : Nat
  slotsPerEpoch : Nat
  schedule : DeadlineSchedule
  one_le_secs : 1 ≤ asSecs slotDuration

namespace SlotClock

def new (genesisTime slotDuration slotsPerEpoch : Nat) : Except TimingError SlotClock :=
  if h : asSecs slotDuration < 1 then .error .invalidSlotDuration
  else .ok ⟨genesisTime, slotDuration, slotsPerEpoch, .uniform .default, Nat.le_of_not_lt h⟩

section

variable (clock : SlotClock)

def withDeadlineSchedule (schedule : DeadlineSchedule) : SlotClock :=
  { clock with schedule := schedule }

def build (genesisTime slotDurationMs slotsPerEpoch : Nat) (schedule : DeadlineSchedule) :
    Except TimingError SlotClock := do
  let clock ← new genesisTime (fromMillis slotDurationMs) slotsPerEpoch
  return clock.withDeadlineSchedule schedule

def currentTimeMs (now : Nat) : Nat := u64 (u64 (1000 * asSecs now) + now % 10 ^ 9 / 10 ^ 6)

def currentSlot (now : Nat) : Except TimingError Nat :=
  let currentTime := asSecs now
  if currentTime < clock.genesisTime then .error (.beforeGenesis currentTime clock.genesisTime)
  else .ok ((currentTime - clock.genesisTime) / asSecs clock.slotDuration)

def deadlines : DeadlineBps := clock.schedule.preGloas

def deadlinesFor (fork : ForkName) : DeadlineBps := clock.schedule.forFork fork

def slotStartTime (slot : Nat) : Nat :=
  u64 (clock.genesisTime + u64 (slot * asSecs clock.slotDuration))

def slotStartMs (slot : Nat) : Nat := saturatedU64 (1000 * clock.slotStartTime slot)

def slotStartMsChecked (slot : Nat) : Except TimingError Nat := do
  let some slotSecs := checkedU64 (slot * asSecs clock.slotDuration) | .error .timeOverflow
  let some startSecs := checkedU64 (clock.genesisTime + slotSecs) | .error .timeOverflow
  let some startMs := checkedU64 (1000 * startSecs) | .error .timeOverflow
  return startMs

def msIntoSlot (now slot : Nat) : Nat := currentTimeMs now - clock.slotStartMs slot

def timeUntilSlot (now slot : Nat) : Except TimingError Nat := do
  let slotStartMs ← clock.slotStartMsChecked slot
  return fromMillis (slotStartMs - currentTimeMs now)

def dueTimeMs (slot bps : Nat) : Except TimingError Nat := do
  let slotStartMs ← clock.slotStartMsChecked slot
  let some dueTimeMs := checkedU64 (slotStartMs + dueMs bps (u64 (asMillis clock.slotDuration)))
    | .error .timeOverflow
  return dueTimeMs

/-! ### Slots without overflow -/

def Fits (slot : Nat) : Prop :=
  1000 * (clock.genesisTime + slot * asSecs clock.slotDuration) < u64Size

end

instance (clock : SlotClock) (slot : Nat) : Decidable (clock.Fits slot) := inferInstanceAs (Decidable (_ < _))

variable {clock : SlotClock} {slot now : Nat}

theorem Fits.of_le {later : Nat} (h : clock.Fits later) (hle : slot ≤ later) : clock.Fits slot :=
  Nat.lt_of_le_of_lt (Nat.mul_le_mul_left 1000 (Nat.add_le_add_left (Nat.mul_le_mul_right _ hle) _)) h

theorem Fits.slotStartMs_eq (h : clock.Fits slot) :
    clock.slotStartMs slot = 1000 * (clock.genesisTime + slot * asSecs clock.slotDuration) := by
  unfold Fits at h
  rw [slotStartMs, slotStartTime, u64_of_lt (n := slot * asSecs clock.slotDuration) (by omega), u64_of_lt (by omega),
    saturatedU64_of_lt h]

theorem Fits.slotStartMsChecked_eq (h : clock.Fits slot) :
    clock.slotStartMsChecked slot = .ok (1000 * (clock.genesisTime + slot * asSecs clock.slotDuration)) := by
  unfold Fits at h
  simp only [slotStartMsChecked, checkedU64_of_lt (show slot * asSecs clock.slotDuration < u64Size by omega),
    checkedU64_of_lt (show clock.genesisTime + slot * asSecs clock.slotDuration < u64Size by omega), checkedU64_of_lt h]
  rfl

theorem slotStartMsChecked_eq_ok {startMs : Nat} (h : clock.slotStartMsChecked slot = .ok startMs) :
    startMs = 1000 * (clock.genesisTime + slot * asSecs clock.slotDuration) := by
  unfold slotStartMsChecked at h
  split at h
  · next slotSecs hsecs =>
    obtain ⟨rfl, -⟩ := checkedU64_eq_some hsecs
    split at h
    · next startSecs hstart =>
      obtain ⟨rfl, -⟩ := checkedU64_eq_some hstart
      split at h
      · next ms hms =>
        obtain ⟨rfl, -⟩ := checkedU64_eq_some hms
        exact (Except.ok.inj h).symm
      · cases h
    · cases h
  · cases h

theorem timeUntilSlot_eq_ok {untilSlot : Nat} (h : clock.timeUntilSlot now slot = .ok untilSlot) :
    untilSlot = fromMillis (1000 * (clock.genesisTime + slot * asSecs clock.slotDuration) - currentTimeMs now) := by
  obtain ⟨startMs, hstart, huntil⟩ := bind_eq_ok.mp h
  obtain rfl := slotStartMsChecked_eq_ok hstart
  exact (Except.ok.inj huntil).symm

theorem currentTimeMs_eq (h : 1000 * asSecs now + 999 < u64Size) : currentTimeMs now = asMillis now := by
  rw [currentTimeMs, asMillis, u64_of_lt (n := 1000 * asSecs now) (by omega), asSecs] at *
  rw [u64_of_lt (by omega)]
  omega

theorem currentSlot_eq_ok (h : clock.genesisTime ≤ asSecs now) :
    clock.currentSlot now = .ok ((asSecs now - clock.genesisTime) / asSecs clock.slotDuration) :=
  if_neg (not_lt.mpr h)

theorem currentSlot_bounds (h : clock.currentSlot now = .ok slot) :
    clock.genesisTime + slot * asSecs clock.slotDuration ≤ asSecs now ∧
      asSecs now < clock.genesisTime + (slot + 1) * asSecs clock.slotDuration := by
  have hle : clock.genesisTime ≤ asSecs now := by
    by_contra hlt
    rw [currentSlot, if_pos (Nat.lt_of_not_le hlt)] at h
    cases h
  rw [currentSlot_eq_ok hle] at h
  cases h
  have hmul := Nat.div_mul_le_self (asSecs now - clock.genesisTime) (asSecs clock.slotDuration)
  have hlt := Nat.lt_mul_div_succ (asSecs now - clock.genesisTime) clock.one_le_secs
  rw [Nat.mul_comm] at hlt
  omega

theorem currentSlot_slotStartMs (hfits : clock.Fits (slot + 1)) (h : clock.currentSlot now = .ok slot) :
    clock.slotStartMs slot ≤ currentTimeMs now ∧ currentTimeMs now < clock.slotStartMs (slot + 1) := by
  obtain ⟨hle, hlt⟩ := currentSlot_bounds h
  have hsize : 1000 * (clock.genesisTime + (slot + 1) * asSecs clock.slotDuration) < u64Size := hfits
  rw [hfits.slotStartMs_eq, (hfits.of_le (le_succ slot)).slotStartMs_eq, currentTimeMs_eq (by omega)]
  unfold asSecs asMillis at *
  omega

/-! ### Whole seconds -/

def WholeSeconds (clock : SlotClock) : Prop := clock.slotDuration = 10 ^ 9 * asSecs clock.slotDuration

instance (clock : SlotClock) : Decidable clock.WholeSeconds := inferInstanceAs (Decidable (_ = _))

theorem asMillis_slotDuration (h : clock.WholeSeconds) :
    asMillis clock.slotDuration = 1000 * asSecs clock.slotDuration := by
  have hduration : clock.slotDuration = 10 ^ 9 * asSecs clock.slotDuration := h
  rw [asMillis]
  omega

theorem Fits.slotStartMs_succ (hwhole : clock.WholeSeconds) (h : clock.Fits (slot + 1)) :
    clock.slotStartMs (slot + 1) = clock.slotStartMs slot + asMillis clock.slotDuration := by
  have hsucc := Nat.add_one_mul slot (asSecs clock.slotDuration)
  rw [h.slotStartMs_eq, (h.of_le (Nat.le_succ slot)).slotStartMs_eq, asMillis_slotDuration hwhole]
  omega

theorem dueMs_le {bps slotMs : Nat} (hbps : bps ≤ basisPoints) (h : bps * slotMs < u64Size) :
    dueMs bps slotMs ≤ slotMs := by
  rw [dueMs, u64_of_lt h]
  exact Nat.div_le_of_le_mul (Nat.mul_le_mul_right slotMs hbps)

theorem Fits.dueTimeMs_eq (hwhole : clock.WholeSeconds) (h : clock.Fits (slot + 1)) {bps : Nat}
    (hbps : bps ≤ basisPoints) (hdue : bps * asMillis clock.slotDuration < u64Size) :
    ∃ due, clock.dueTimeMs slot bps = .ok due ∧ clock.slotStartMs slot ≤ due ∧ due ≤ clock.slotStartMs (slot + 1) := by
  have hslot := h.of_le (le_succ slot)
  have hle := dueMs_le hbps hdue
  have hsucc := h.slotStartMs_succ hwhole
  have hsize : clock.slotStartMs (slot + 1) < u64Size := by
    rw [h.slotStartMs_eq]
    exact h
  have hmillis : asMillis clock.slotDuration < u64Size := by omega
  have hdueLt : clock.slotStartMs slot + dueMs bps (asMillis clock.slotDuration) < u64Size := by omega
  refine ⟨clock.slotStartMs slot + dueMs bps (asMillis clock.slotDuration), ?_, le_add_right _ _, by omega⟩
  simp only [dueTimeMs, hslot.slotStartMsChecked_eq, ← hslot.slotStartMs_eq, u64_of_lt hmillis, bind, Except.bind,
    checkedU64_of_lt hdueLt]
  rfl

/-- What the numbers of a clock owe each other, where they do not overflow: the time lies in the current slot, a slot
starts its duration after the one before, and its deadlines lie in it. -/
structure Coherent (clock : SlotClock) : Prop where
  current : ∀ now, clock.genesisTime ≤ asSecs now → ∃ slot, clock.currentSlot now = .ok slot ∧
    (clock.Fits (slot + 1) →
      clock.slotStartMs slot ≤ currentTimeMs now ∧ currentTimeMs now < clock.slotStartMs (slot + 1))
  starts : ∀ slot, clock.Fits (slot + 1) →
    fromMillis (clock.slotStartMs (slot + 1)) = fromMillis (clock.slotStartMs slot) + clock.slotDuration
  due : ∀ slot bps, clock.Fits (slot + 1) → bps ≤ basisPoints → bps * asMillis clock.slotDuration < u64Size →
    ∃ due, clock.dueTimeMs slot bps = .ok due ∧ clock.slotStartMs slot ≤ due ∧ due ≤ clock.slotStartMs (slot + 1)

theorem coherent_of_wholeSeconds (hwhole : clock.WholeSeconds) : clock.Coherent where
  current now hnow :=
    ⟨_, currentSlot_eq_ok hnow, fun hfits => currentSlot_slotStartMs hfits (currentSlot_eq_ok hnow)⟩
  starts slot hfits := by
    have hsucc := hfits.slotStartMs_succ hwhole
    have hmillis := asMillis_slotDuration hwhole
    have hduration : clock.slotDuration = 10 ^ 9 * asSecs clock.slotDuration := hwhole
    unfold fromMillis
    omega
  due slot bps hfits hbps hdue := hfits.dueTimeMs_eq hwhole hbps hdue

theorem coherent_of_not_fits (h : ¬clock.Fits 1) : clock.Coherent where
  current _ hnow := ⟨_, currentSlot_eq_ok hnow, fun hfits => absurd (hfits.of_le (Nat.le_add_left 1 _)) h⟩
  starts slot hfits := absurd (hfits.of_le (Nat.le_add_left 1 slot)) h
  due slot _ hfits := absurd (hfits.of_le (Nat.le_add_left 1 slot)) h

/-- A clock is coherent exactly if its slots last whole seconds, or the second slot already overflows. -/
theorem slot_clock_coherent (clock : SlotClock) : clock.Coherent ↔ (clock.Fits 1 → clock.WholeSeconds) := by
  constructor
  · intro hcoherent hfits
    have hstarts := hcoherent.starts 0 hfits
    rw [hfits.slotStartMs_eq, (hfits.of_le (zero_le 1)).slotStartMs_eq] at hstarts
    unfold fromMillis at hstarts
    unfold WholeSeconds
    omega
  · intro hwhole
    by_cases hfits : clock.Fits 1
    · exact coherent_of_wholeSeconds (hwhole hfits)
    · exact coherent_of_not_fits hfits

def mainnetClock : SlotClock := ⟨1606824023, 12 * 10 ^ 9, 32, .uniform .default, by decide⟩

theorem slot_clock_coherent_mainnet : mainnetClock.Fits 1 ∧ mainnetClock.Coherent :=
  ⟨by decide, (slot_clock_coherent mainnetClock).mpr fun _ => by decide⟩

def sampleClock : SlotClock := ⟨1606824023, 1500 * 10 ^ 6, 32, .uniform .default, by decide⟩

/-- The slots of a second and a half start a second apart, and the last deadline of a slot is after the start of the
next. -/
theorem half_second_lost :
    sampleClock.Fits 1 ∧ ¬sampleClock.Coherent ∧ sampleClock.slotStartMs 1 = sampleClock.slotStartMs 0 + 1000 ∧
      sampleClock.dueTimeMs 0 10000 = .ok (sampleClock.slotStartMs 1 + 500) ∧
      ∀ schedule, SlotClock.build 1606824023 1500 32 schedule = .ok (sampleClock.withDeadlineSchedule schedule) :=
  ⟨by decide, fun hcoherent => absurd (hcoherent.starts 0 (by decide)) (by decide), by decide, by decide, fun _ => rfl⟩

end SlotClock

end Rvc.Timing
