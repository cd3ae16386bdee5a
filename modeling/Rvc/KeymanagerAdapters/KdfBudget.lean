import Rvc.Lib.Semaphore

/-!
# The budget of the key derivations

`KdfBudget::admit` gates the derivations of keystore imports by two fair semaphores: one of slots, and one of
mebibytes. A keystore that fits the byte budget takes a slot, and then, holding it, its mebibytes; a larger one takes
all the slots and no mebibyte. A call is suspended at one of the two awaits, holding what it has got; it may be
dropped there, and the drop of an admission gives its permits back one after the other. We run every schedule of such
steps. Conservation of the two semaphores bounds what is live. A call that waits for slots holds nothing, so once
nothing is live the mebibytes are all there for the calls that hold slots, and if there are none, so are the slots.
-/

namespace Rvc.KeymanagerAdapters

open Rvc.Lib List Semaphore

def mib : Nat := 1024 * 1024

structure KdfBudgetConfig where
  concurrency : Nat
  totalBytes : Nat
  maxKeystoreBytes : Nat
  deriving DecidableEq

/-- `KdfBudgetConfig::from_keymanager`: the knobs are `u32`. -/
def KdfBudgetConfig.fromKeymanager (importKdfConcurrency importKdfTotalMib importKdfMaxKeystoreMib : UInt32) :
    KdfBudgetConfig :=
  ⟨importKdfConcurrency.toNat, importKdfTotalMib.toNat * mib, importKdfMaxKeystoreMib.toNat * mib⟩

inductive KdfBudgetError where
  | tooLarge (bytes maxKeystoreBytes : Nat)
  deriving DecidableEq

def mibUnits (bytes : Nat) : Nat := (bytes + (mib - 1)) / mib

def bytePermits (bytes : Nat) : Nat := if mibUnits bytes < 2 ^ 32 then mibUnits bytes else 2 ^ 32 - 1

def KdfBudgetConfig.slotPermits (cfg : KdfBudgetConfig) (bytes : Nat) : Nat :=
  if bytes > cfg.totalBytes then cfg.concurrency else 1

structure AdmitCall (ι : Type) where
  id : ι
  bytes : Nat
  deriving DecidableEq

/-- A call that has its slot permits, suspended at the byte semaphore. -/
structure SlotHolder (ι : Type) where
  call : AdmitCall ι
  slots : Nat
  deriving DecidableEq

structure KdfAdmission (ι : Type) where
  call : AdmitCall ι
  slots : Nat
  bytes : Option Nat
  deriving DecidableEq

inductive Permit where
  | slots (n : Nat)
  | bytes (n : Nat)
  deriving DecidableEq

namespace Permit

def slotCount : Permit → Nat
  | slots n => n
  | bytes _ => 0

def byteCount : Permit → Nat
  | slots _ => 0
  | bytes n => n

end Permit

def KdfAdmission.permits {ι : Type} (admission : KdfAdmission ι) : List Permit :=
  .slots admission.slots :: (admission.bytes.map Permit.bytes).toList

/-- `KdfBudget`, with the admissions that are live and the permits of those being dropped. -/
structure KdfBudget (ι : Type) where
  slots : Semaphore (AdmitCall ι)
  bytes : Semaphore (SlotHolder ι)
  cfg : KdfBudgetConfig
  live : List (KdfAdmission ι)
  returning : List Permit
  deriving DecidableEq

inductive Await where
  | slots
  | bytes
  deriving DecidableEq

inductive BudgetStep (ι : Type) where
  | admitCall (id : ι) (bytes : Nat)
  | poll (await : Await) (id : ι)
  | cancel (await : Await) (id : ι)
  | drop (id : ι)
  | giveBack (permit : Permit)

namespace KdfBudget

variable {ι : Type}

def new (cfg : KdfBudgetConfig) : Option (KdfBudget ι) :=
  if 1 ≤ cfg.concurrency then some ⟨.new cfg.concurrency, .new (mibUnits cfg.totalBytes), cfg, [], []⟩ else none

section

variable (s : KdfBudget ι) (call : AdmitCall ι) (slots : Nat)

def askBytes (permits : Nat) : KdfBudget ι :=
  if permits = 0 then { s with live := ⟨call, slots, none⟩ :: s.live }
  else
    match s.bytes.acquire ⟨⟨call, slots⟩, permits⟩ with
    | (true, bytes) => { s with bytes := bytes, live := ⟨call, slots, some permits⟩ :: s.live }
    | (false, bytes) => { s with bytes := bytes }

def holdSlots : KdfBudget ι :=
  if call.bytes > s.cfg.totalBytes then { s with live := ⟨call, slots, none⟩ :: s.live }
  else s.askBytes call slots (bytePermits call.bytes)

/-- `KdfBudget::admit`, up to its first await that is not ready. -/
def admitCall : Except KdfBudgetError (KdfBudget ι) :=
  if call.bytes > s.cfg.maxKeystoreBytes then .error (.tooLarge call.bytes s.cfg.maxKeystoreBytes)
  else
    let permits := s.cfg.slotPermits call.bytes
    match s.slots.acquire ⟨call, permits⟩ with
    | (true, slots) => .ok ({ s with slots := slots }.holdSlots call permits)
    | (false, slots) => .ok { s with slots := slots }

end

section

variable [DecidableEq ι]

section

variable (s : KdfBudget ι) (id : ι)

/-- A suspended call is polled: it goes on if its permits are assigned. -/
def poll : Await → KdfBudget ι
  | .slots =>
    match s.slots.pick? fun call => call.id = id with
    | some (w, slots) => { s with slots := slots }.holdSlots w.who w.permits
    | none => s
  | .bytes =>
    match s.bytes.pick? fun holder => holder.call.id = id with
    | some (w, bytes) =>
      { s with bytes := bytes, live := ⟨w.who.call, w.who.slots, some w.permits⟩ :: s.live }
    | none => s

/-- A suspended call is dropped: its request is withdrawn, and then the slots that it holds go back. -/
def cancel : Await → KdfBudget ι
  | .slots =>
    match s.slots.cancel? fun call => call.id = id with
    | some (_, slots) => { s with slots := slots }
    | none => s
  | .bytes =>
    match s.bytes.cancel? fun holder => holder.call.id = id with
    | some (w, bytes) => { s with bytes := bytes, returning := .slots w.who.slots :: s.returning }
    | none => s

def dropAdmission : KdfBudget ι :=
  match takeFirst (fun admission => admission.call.id = id) s.live with
  | some (admission, live) => { s with live := live, returning := admission.permits ++ s.returning }
  | none => s

def giveBack (permit : Permit) : KdfBudget ι :=
  match takeFirst (fun other => other = permit) s.returning with
  | some (.slots n, returning) => { s with slots := s.slots.release n, returning := returning }
  | some (.bytes n, returning) => { s with bytes := s.bytes.release n, returning := returning }
  | none => s

def step : BudgetStep ι → KdfBudget ι
  | .admitCall id bytes => (s.admitCall ⟨id, bytes⟩).toOption.getD s
  | .poll await id => s.poll id await
  | .cancel await id => s.cancel id await
  | .drop id => s.dropAdmission id
  | .giveBack permit => s.giveBack permit

def run (steps : List (BudgetStep ι)) : KdfBudget ι := steps.foldl step s

end

end

/-! ### What the permits are held for -/

def heldSlots (s : KdfBudget ι) : Nat :=
  (s.bytes.waiting.map fun w => w.who.slots).sum + (s.live.map KdfAdmission.slots).sum +
    (s.returning.map Permit.slotCount).sum

def heldBytes (s : KdfBudget ι) : Nat :=
  (s.live.map fun admission => admission.bytes.getD 0).sum + (s.returning.map Permit.byteCount).sum

structure Charged (cfg : KdfBudgetConfig) (admission : KdfAdmission ι) : Prop where
  slots : admission.slots = cfg.slotPermits admission.call.bytes
  bytes : admission.call.bytes ≤ cfg.totalBytes → admission.bytes.getD 0 = bytePermits admission.call.bytes

/-- Both semaphores account for what is held; `slotHand` and `byteHand` permits are in the hand of the step that
runs. -/
structure Inv (cfg : KdfBudgetConfig) (s : KdfBudget ι) (slotHand byteHand : Nat) : Prop where
  cfg_eq : s.cfg = cfg
  slots : s.slots.Sound cfg.concurrency (s.heldSlots + slotHand)
  bytes : s.bytes.Sound (mibUnits cfg.totalBytes) (s.heldBytes + byteHand)
  slotWaiters : ∀ w ∈ s.slots.waiting, w.permits = cfg.slotPermits w.who.bytes
  byteWaiters : ∀ w ∈ s.bytes.waiting, w.permits = bytePermits w.who.call.bytes ∧
    w.who.call.bytes ≤ cfg.totalBytes ∧ w.who.slots = cfg.slotPermits w.who.call.bytes
  live : ∀ admission ∈ s.live, Charged cfg admission

variable {cfg : KdfBudgetConfig} {s s' : KdfBudget ι} {call : AdmitCall ι} {id : ι} {slotHand byteHand : Nat}

open KdfBudget

theorem Inv.new (h : new cfg = some s) : Inv cfg s 0 0 := by
  unfold KdfBudget.new at h
  split_ifs at h
  cases h
  exact ⟨rfl, .new _, .new _, nofun, nofun, nofun⟩

/-! ### Permits into the hand -/

variable {slots : Semaphore (AdmitCall ι)} {w : Waiter (AdmitCall ι)}

theorem Inv.acquire_slots (h : Inv cfg s 0 0)
    (hacquire : s.slots.acquire w = (true, slots)) : Inv cfg { s with slots := slots } w.permits 0 :=
  { h with
    slots := h.slots.acquire_true hacquire
    slotWaiters := waiting_of_acquire_true hacquire ▸ h.slotWaiters }

theorem Inv.wait_slots (h : Inv cfg s 0 0)
    (hacquire : s.slots.acquire w = (false, slots)) (hw : w.permits = cfg.slotPermits w.who.bytes) :
    Inv cfg { s with slots := slots } 0 0 :=
  { h with
    slots := h.slots.acquire_false hacquire
    slotWaiters := by
      rw [show slots.waiting = _ from waiting_of_acquire_false hacquire]
      exact forall_mem_append.mpr ⟨h.slotWaiters, forall_mem_singleton.mpr hw⟩ }

theorem Inv.pick_slots {p : AdmitCall ι → Bool} (h : Inv cfg s 0 0) (hpick : s.slots.pick? p = some (w, slots)) :
    Inv cfg { s with slots := slots } w.permits 0 ∧ w.permits = cfg.slotPermits w.who.bytes := by
  have hperm := waiting_of_pick? hpick
  refine ⟨{ h with slots := h.slots.pick hpick, slotWaiters := ?_ }, h.slotWaiters w (hperm.mem_iff.mpr (.head _))⟩
  exact fun w' hw' => h.slotWaiters w' (hperm.mem_iff.mpr (.tail _ hw'))

theorem Inv.cancel_slots {p : AdmitCall ι → Bool}
    (h : Inv cfg s 0 0) (hcancel : s.slots.cancel? p = some (w, slots)) : Inv cfg { s with slots := slots } 0 0 :=
  { h with
    slots := h.slots.cancel hcancel
    slotWaiters := fun w' hw' =>
      h.slotWaiters w' ((waiting_of_cancel? hcancel).mem_iff.mpr (.tail _ hw')) }

section

variable {w : Waiter (SlotHolder ι)} {bytes : Semaphore (SlotHolder ι)} {p : SlotHolder ι → Bool}

theorem Inv.acquire_bytes (h : Inv cfg s slotHand 0) (hacquire : s.bytes.acquire w = (true, bytes)) :
    Inv cfg { s with bytes := bytes } slotHand w.permits := by
  have hwaiting := waiting_of_acquire_true hacquire
  have hheld : heldSlots { s with bytes := bytes } = s.heldSlots := by rw [heldSlots, heldSlots, hwaiting]
  exact { h with
    slots := hheld.symm ▸ h.slots
    bytes := h.bytes.acquire_true hacquire
    byteWaiters := hwaiting ▸ h.byteWaiters }

theorem Inv.wait_bytes (h : Inv cfg s w.who.slots 0) (hacquire : s.bytes.acquire w = (false, bytes))
    (hw : w.permits = bytePermits w.who.call.bytes ∧ w.who.call.bytes ≤ cfg.totalBytes ∧
      w.who.slots = cfg.slotPermits w.who.call.bytes) : Inv cfg { s with bytes := bytes } 0 0 := by
  have hwaiting := waiting_of_acquire_false hacquire
  have hheld : s.heldSlots + w.who.slots = heldSlots { s with bytes := bytes } := by
    simp only [heldSlots, hwaiting, map_append, sum_append, map_cons, map_nil, sum_cons, sum_nil]
    omega
  refine { h with slots := hheld ▸ h.slots, bytes := h.bytes.acquire_false hacquire, byteWaiters := ?_ }
  rw [show bytes.waiting = _ from hwaiting]
  exact forall_mem_append.mpr ⟨h.byteWaiters, forall_mem_singleton.mpr hw⟩

theorem heldSlots_withdraw (hperm : s.bytes.waiting.Perm (w :: bytes.waiting)) :
    s.heldSlots = heldSlots { s with bytes := bytes } + w.who.slots := by
  have hsum := (hperm.map fun w => w.who.slots).sum_eq
  simp only [map_cons, sum_cons] at hsum
  simp only [heldSlots, hsum]
  omega

theorem Inv.pick_bytes (h : Inv cfg s 0 0) (hpick : s.bytes.pick? p = some (w, bytes)) :
    Inv cfg { s with bytes := bytes } w.who.slots w.permits ∧ w ∈ s.bytes.waiting := by
  have hperm := waiting_of_pick? hpick
  refine ⟨{ h with slots := ?_, bytes := h.bytes.pick hpick, byteWaiters := ?_ }, hperm.mem_iff.mpr (.head _)⟩
  · exact heldSlots_withdraw hperm ▸ h.slots
  · exact fun w' hw' => h.byteWaiters w' (hperm.mem_iff.mpr (.tail _ hw'))

theorem Inv.cancel_bytes (h : Inv cfg s 0 0) (hcancel : s.bytes.cancel? p = some (w, bytes)) :
    Inv cfg { s with bytes := bytes } w.who.slots 0 := by
  have hperm := waiting_of_cancel? hcancel
  refine { h with slots := ?_, bytes := h.bytes.cancel hcancel, byteWaiters := ?_ }
  · exact heldSlots_withdraw hperm ▸ h.slots
  · exact fun w' hw' => h.byteWaiters w' (hperm.mem_iff.mpr (.tail _ hw'))

end

theorem Inv.take_live {admission : KdfAdmission ι} {live : List (KdfAdmission ι)} (h : Inv cfg s 0 0)
    (hperm : s.live.Perm (admission :: live)) :
    Inv cfg { s with live := live } admission.slots (admission.bytes.getD 0) := by
  have hslots := (hperm.map KdfAdmission.slots).sum_eq
  have hbytes := (hperm.map fun admission => admission.bytes.getD 0).sum_eq
  simp only [map_cons, sum_cons] at hslots hbytes
  have hheldSlots : s.heldSlots = heldSlots { s with live := live } + admission.slots := by
    simp only [heldSlots, hslots]
    omega
  have hheldBytes : s.heldBytes = heldBytes { s with live := live } + admission.bytes.getD 0 := by
    simp only [heldBytes, hbytes]
    omega
  exact { h with
    slots := hheldSlots ▸ h.slots
    bytes := hheldBytes ▸ h.bytes
    live := fun other hother => h.live other (hperm.mem_iff.mpr (.tail _ hother)) }

open Permit

theorem Inv.take_returning {permit : Permit} {returning : List Permit} (h : Inv cfg s 0 0)
    (hperm : s.returning.Perm (permit :: returning)) :
    Inv cfg { s with returning := returning } permit.slotCount permit.byteCount := by
  have hslots := (hperm.map slotCount).sum_eq
  have hbytes := (hperm.map byteCount).sum_eq
  simp only [map_cons, sum_cons] at hslots hbytes
  have hheldSlots : s.heldSlots = heldSlots { s with returning := returning } + permit.slotCount := by
    simp only [heldSlots, hslots]
    omega
  have hheldBytes : s.heldBytes = heldBytes { s with returning := returning } + permit.byteCount := by
    simp only [heldBytes, hbytes]
    omega
  exact { h with slots := hheldSlots ▸ h.slots, bytes := hheldBytes ▸ h.bytes }

/-! ### Permits out of the hand -/

theorem Inv.put_live (admission : KdfAdmission ι) (h : Inv cfg s admission.slots (admission.bytes.getD 0))
    (hcharged : Charged cfg admission) : Inv cfg { s with live := admission :: s.live } 0 0 := by
  have hheldSlots : s.heldSlots + admission.slots = heldSlots { s with live := admission :: s.live } + 0 := by
    simp only [heldSlots, map_cons, sum_cons]
    omega
  have hheldBytes : s.heldBytes + admission.bytes.getD 0 = heldBytes { s with live := admission :: s.live } + 0 := by
    simp only [heldBytes, map_cons, sum_cons]
    omega
  exact { h with
    slots := hheldSlots ▸ h.slots
    bytes := hheldBytes ▸ h.bytes
    live := forall_mem_cons.mpr ⟨hcharged, h.live⟩ }

theorem Inv.put_returning (permits : List Permit)
    (h : Inv cfg s (permits.map Permit.slotCount).sum (permits.map Permit.byteCount).sum) :
    Inv cfg { s with returning := permits ++ s.returning } 0 0 := by
  have hheldSlots : s.heldSlots + (permits.map slotCount).sum =
      heldSlots { s with returning := permits ++ s.returning } + 0 := by
    simp only [heldSlots, map_append, sum_append]
    omega
  have hheldBytes : s.heldBytes + (permits.map byteCount).sum =
      heldBytes { s with returning := permits ++ s.returning } + 0 := by
    simp only [heldBytes, map_append, sum_append]
    omega
  exact { h with slots := hheldSlots ▸ h.slots, bytes := hheldBytes ▸ h.bytes }

theorem Inv.release_slots (h : Inv cfg s slotHand 0) : Inv cfg { s with slots := s.slots.release slotHand } 0 0 :=
  { h with
    slots := h.slots.release
    slotWaiters := waiting_release.symm ▸ h.slotWaiters }

theorem Inv.release_bytes (h : Inv cfg s 0 byteHand) : Inv cfg { s with bytes := s.bytes.release byteHand } 0 0 := by
  have hheld : heldSlots { s with bytes := s.bytes.release byteHand } = s.heldSlots := by
    rw [heldSlots, heldSlots, waiting_release]
  exact { h with
    slots := hheld.symm ▸ h.slots
    bytes := h.bytes.release
    byteWaiters := waiting_release.symm ▸ h.byteWaiters }

/-! ### Whole steps -/

theorem slotPermits_of_lt {bytes : Nat} (h : cfg.totalBytes < bytes) : cfg.slotPermits bytes = cfg.concurrency :=
  if_pos h

theorem Inv.askBytes {permits : Nat} (h : Inv cfg s slotHand 0) (hhand : slotHand = cfg.slotPermits call.bytes)
    (hfits : call.bytes ≤ cfg.totalBytes) (hpermits : permits = bytePermits call.bytes) :
    Inv cfg (s.askBytes call slotHand permits) 0 0 := by
  unfold KdfBudget.askBytes
  split
  · next hzero => exact h.put_live ⟨call, slotHand, none⟩ ⟨hhand, fun _ => hzero.symm.trans hpermits⟩
  · split
    · next hacquire =>
      exact (h.acquire_bytes hacquire).put_live ⟨call, slotHand, some permits⟩ ⟨hhand, fun _ => hpermits⟩
    · next hacquire => exact h.wait_bytes hacquire ⟨hpermits, hfits, hhand⟩

theorem Inv.holdSlots (h : Inv cfg s slotHand 0) (hhand : slotHand = cfg.slotPermits call.bytes) :
    Inv cfg (s.holdSlots call slotHand) 0 0 := by
  obtain rfl := h.cfg_eq
  unfold holdSlots
  split
  · next hover => exact h.put_live ⟨call, slotHand, none⟩ ⟨hhand, fun hle => absurd hle (Nat.not_le.mpr hover)⟩
  · next hover => exact h.askBytes hhand (Nat.le_of_not_lt hover) rfl

theorem Inv.admitCall (h : Inv cfg s 0 0) (hok : s.admitCall call = .ok s') : Inv cfg s' 0 0 := by
  obtain rfl := h.cfg_eq
  unfold admitCall at hok
  split_ifs at hok
  simp only at hok
  split at hok <;> cases hok
  · next hacquire => exact (h.acquire_slots hacquire).holdSlots rfl
  · next hacquire => exact h.wait_slots hacquire rfl

theorem slotCount_permits (admission : KdfAdmission ι) :
    (admission.permits.map Permit.slotCount).sum = admission.slots := by
  obtain ⟨call, slots, bytes⟩ := admission
  cases bytes <;> rfl

theorem byteCount_permits (admission : KdfAdmission ι) :
    (admission.permits.map Permit.byteCount).sum = admission.bytes.getD 0 := by
  obtain ⟨call, slots, bytes⟩ := admission
  cases bytes <;> simp [KdfAdmission.permits, byteCount]

theorem Inv.giveBack (h : Inv cfg s 0 0) (permit : Permit) : Inv cfg (s.giveBack permit) 0 0 := by
  unfold KdfBudget.giveBack
  split
  · next hfound => exact (h.take_returning (takeFirst_eq_some hfound).2).release_slots
  · next hfound => exact (h.take_returning (takeFirst_eq_some hfound).2).release_bytes
  · exact h

/-! ### What is live -/

theorem Inv.slots_le (h : Inv cfg s 0 0) : (s.live.map KdfAdmission.slots).sum ≤ cfg.concurrency := by
  have hheld := h.slots.held_le
  unfold heldSlots at hheld
  omega

section

variable (hconcurrency : 1 ≤ cfg.concurrency)

include hconcurrency

theorem one_le_slotPermits (bytes : Nat) : 1 ≤ cfg.slotPermits bytes := by
  unfold KdfBudgetConfig.slotPermits
  split_ifs <;> omega

theorem slotPermits_le (bytes : Nat) : cfg.slotPermits bytes ≤ cfg.concurrency := by
  unfold KdfBudgetConfig.slotPermits
  split_ifs <;> omega

theorem length_le_slots {live : List (KdfAdmission ι)}
    (hlive : ∀ admission ∈ live, Charged cfg admission) : live.length ≤ (live.map KdfAdmission.slots).sum := by
  rw [← length_map KdfAdmission.slots]
  refine length_le_sum_of_one_le _ fun slots hslots => ?_
  obtain ⟨admission, hadmission, rfl⟩ := mem_map.mp hslots
  rw [(hlive admission hadmission).slots]
  exact one_le_slotPermits hconcurrency _

end

theorem Inv.alone (h : Inv cfg s 0 0) (hconcurrency : 1 ≤ cfg.concurrency) {admission : KdfAdmission ι}
    (hlive : admission ∈ s.live) (hover : cfg.totalBytes < admission.call.bytes) : s.live = [admission] := by
  obtain ⟨before, after, hsplit⟩ := append_of_mem hlive
  have hslots := (h.live admission hlive).slots
  rw [slotPermits_of_lt hover] at hslots
  have hle := h.slots_le
  have hothers : ∀ other ∈ before ++ after, Charged cfg other := by
    intro other hother
    refine h.live other ?_
    rw [hsplit]
    simp only [mem_append, mem_cons] at hother ⊢
    tauto
  have hlength := length_le_slots hconcurrency hothers
  simp only [hsplit, map_append, sum_append, map_cons, sum_cons, length_append] at hle hlength
  have hbefore : before = [] := length_eq_zero_iff.mp (by omega)
  have hafter : after = [] := length_eq_zero_iff.mp (by omega)
  rw [hsplit, hbefore, hafter]
  rfl

theorem mibUnits_mono {a b : Nat} (h : a ≤ b) : mibUnits a ≤ mibUnits b := Nat.div_le_div_right (by omega)

theorem bytePermits_le (bytes : Nat) : bytePermits bytes ≤ mibUnits bytes := by
  unfold bytePermits
  split_ifs <;> omega

theorem bytePermits_eq {bytes : Nat} (h : bytes ≤ (2 ^ 32 - 1) * mib) : bytePermits bytes = mibUnits bytes := by
  refine if_pos ?_
  unfold mibUnits mib at *
  omega

theorem Inv.bytes_le (h : Inv cfg s 0 0) (hcap : cfg.totalBytes ≤ (2 ^ 32 - 1) * mib)
    (hfits : ∀ admission ∈ s.live, admission.call.bytes ≤ cfg.totalBytes) :
    (s.live.map fun admission => mibUnits admission.call.bytes).sum ≤ mibUnits cfg.totalBytes := by
  have hcharged : s.live.map (fun admission => admission.bytes.getD 0) =
      s.live.map fun admission => mibUnits admission.call.bytes := by
    refine map_congr_left fun admission hadmission => ?_
    have hle := hfits admission hadmission
    rw [(h.live admission hadmission).bytes hle, bytePermits_eq (Nat.le_trans hle hcap)]
  have hheld := h.bytes.held_le
  unfold heldBytes at hheld
  rw [hcharged] at hheld
  omega

/-! ### The calls that wait -/

def waitingCalls (s : KdfBudget ι) : Await → List (AdmitCall ι)
  | .slots => s.slots.waiting.map fun w => w.who
  | .bytes => s.bytes.waiting.map fun w => w.who.call

theorem giveBack_cons {permit : Permit} {returning : List Permit} (h : s.returning = permit :: returning) :
    (s.giveBack permit).live = s.live ∧ (s.giveBack permit).returning = returning ∧
      ∀ await, (s.giveBack permit).waitingCalls await = s.waitingCalls await := by
  have htake : takeFirst (fun other => other = permit) s.returning = some (permit, returning) := by
    rw [h]
    exact if_pos (decide_eq_true rfl)
  unfold giveBack
  rw [htake]
  cases permit with
  | slots n | bytes n =>
    refine ⟨rfl, rfl, fun await => ?_⟩
    cases await <;> simp only [waitingCalls, waiting_release]

theorem askBytes_admits {total permits : Nat} (hsound : s.bytes.Sound total 0) (hnone : s.bytes.waiting = [])
    (hfits : permits ≤ total) : ∃ admission ∈ (s.askBytes call slotHand permits).live, admission.call = call := by
  unfold askBytes
  split
  · exact ⟨_, .head _, rfl⟩
  · obtain ⟨bytes, hacquire⟩ := hsound.acquire_of_waiting_eq_nil ⟨⟨call, slotHand⟩, permits⟩ hnone hfits
    rw [hacquire]
    exact ⟨_, .head _, rfl⟩

theorem holdSlots_admits (hsound : s.bytes.Sound (mibUnits s.cfg.totalBytes) 0) (hnone : s.bytes.waiting = []) :
    ∃ admission ∈ (s.holdSlots call slotHand).live, admission.call = call := by
  unfold holdSlots
  split
  · exact ⟨_, .head _, rfl⟩
  · next hover =>
    exact askBytes_admits hsound hnone (Nat.le_trans (bytePermits_le _) (mibUnits_mono (Nat.le_of_not_lt hover)))

/-! ### Runs -/

variable [DecidableEq ι]

section

variable (h : Inv cfg s 0 0)

include h

theorem Inv.poll (await : Await) : Inv cfg (s.poll id await) 0 0 := by
  cases await with
  | slots =>
    simp only [KdfBudget.poll]
    split
    · next hpick =>
      obtain ⟨hinv, hhand⟩ := h.pick_slots hpick
      exact hinv.holdSlots hhand
    · exact h
  | bytes =>
    simp only [KdfBudget.poll]
    split
    · next w bytes hpick =>
      obtain ⟨hinv, hw⟩ := h.pick_bytes hpick
      obtain ⟨hpermits, -, hslots⟩ := h.byteWaiters w hw
      exact hinv.put_live ⟨w.who.call, w.who.slots, some w.permits⟩ ⟨hslots, fun _ => hpermits⟩
    · exact h

theorem Inv.cancel (await : Await) : Inv cfg (s.cancel id await) 0 0 := by
  cases await with
  | slots =>
    simp only [KdfBudget.cancel]
    split
    · next hcancel => exact h.cancel_slots hcancel
    · exact h
  | bytes =>
    simp only [KdfBudget.cancel]
    split
    · next w bytes hcancel => exact (h.cancel_bytes hcancel).put_returning [.slots w.who.slots]
    · exact h

theorem Inv.dropAdmission : Inv cfg (s.dropAdmission id) 0 0 := by
  unfold KdfBudget.dropAdmission
  split
  · next admission live hfound =>
    have hinv := h.take_live (takeFirst_eq_some hfound).2
    rw [← slotCount_permits, ← byteCount_permits] at hinv
    exact hinv.put_returning admission.permits
  · exact h

theorem Inv.step (step : BudgetStep ι) : Inv cfg (s.step step) 0 0 := by
  cases step with
  | admitCall id bytes =>
    show Inv cfg ((s.admitCall ⟨id, bytes⟩).toOption.getD s) 0 0
    cases hok : s.admitCall ⟨id, bytes⟩ with
    | ok s' => exact h.admitCall hok
    | error e => exact h
  | poll await id => exact h.poll await
  | cancel await id => exact h.cancel await
  | drop id => exact h.dropAdmission
  | giveBack permit => exact h.giveBack permit

theorem Inv.run (steps : List (BudgetStep ι)) : Inv cfg (s.run steps) 0 0 := by
  induction steps generalizing s with
  | nil => exact h
  | cons step steps ih => exact ih (h.step step)

end

/-! ### Progress -/

/-- The next poll of a suspended call gives it its admission. -/
def Completes (s : KdfBudget ι) (await : Await) (call : AdmitCall ι) : Prop :=
  ∃ admission ∈ (s.poll call.id await).live, admission.call = call

theorem Inv.completes_bytes (h : Inv cfg s 0 0) (hlive : s.live = []) (hreturning : s.returning = [])
    (hwaiting : s.bytes.waiting ≠ []) : ∃ call ∈ s.waitingCalls .bytes, s.Completes .bytes call := by
  have hsound := h.bytes
  simp only [heldBytes, hlive, hreturning, map_nil, sum_nil] at hsound
  have hassigned := hsound.exists_assigned (fun w hw => ?_) hwaiting
  · obtain ⟨w, hw⟩ := exists_mem_of_ne_nil _ hassigned
    obtain ⟨⟨w', bytes⟩, hpick⟩ := exists_pick? (fun holder => holder.call.id = w.who.call.id) hw (decide_eq_true rfl)
    have hid : w'.who.call.id = w.who.call.id := of_decide_eq_true (pick?_eq_some hpick).1
    refine ⟨w'.who.call, mem_map.mpr ⟨w', (h.pick_bytes hpick).2, rfl⟩, ?_⟩
    simp only [Completes, KdfBudget.poll, hid, hpick]
    exact ⟨_, .head _, rfl⟩
  · obtain ⟨hpermits, hle, -⟩ := h.byteWaiters w hw
    rw [hpermits]
    exact Nat.le_trans (bytePermits_le _) (mibUnits_mono hle)

theorem Inv.completes_slots (h : Inv cfg s 0 0) (hconcurrency : 1 ≤ cfg.concurrency) (hlive : s.live = [])
    (hreturning : s.returning = []) (hbytes : s.bytes.waiting = []) (hwaiting : s.slots.waiting ≠ []) :
    ∃ call ∈ s.waitingCalls .slots, s.Completes .slots call := by
  obtain rfl := h.cfg_eq
  have hsound := h.slots
  have hbyteSound := h.bytes
  simp only [heldSlots, heldBytes, hlive, hreturning, hbytes, map_nil, sum_nil] at hsound hbyteSound
  have hassigned := hsound.exists_assigned (fun w hw => ?_) hwaiting
  · obtain ⟨w, hw⟩ := exists_mem_of_ne_nil _ hassigned
    obtain ⟨⟨w', slots⟩, hpick⟩ := exists_pick? (fun call => call.id = w.who.id) hw (decide_eq_true rfl)
    have hid : w'.who.id = w.who.id := of_decide_eq_true (pick?_eq_some hpick).1
    have hmem := (waiting_of_pick? hpick).mem_iff.mpr (.head _)
    refine ⟨w'.who, mem_map.mpr ⟨w', hmem, rfl⟩, ?_⟩
    simp only [Completes, KdfBudget.poll, hid, hpick]
    exact holdSlots_admits hbyteSound hbytes
  · rw [h.slotWaiters w hw]
    exact slotPermits_le hconcurrency _

def returned (s : KdfBudget ι) : KdfBudget ι := s.run (s.returning.map .giveBack)

theorem run_giveBack (returning : List Permit) : ∀ {s : KdfBudget ι}, s.returning = returning →
    let s' := s.run (returning.map .giveBack)
    s'.live = s.live ∧ s'.returning = [] ∧ ∀ await, s'.waitingCalls await = s.waitingCalls await := by
  induction returning with
  | nil => exact fun h => ⟨rfl, h, fun _ => rfl⟩
  | cons permit returning ih =>
    intro s h
    obtain ⟨hlive, hreturning, hwaiting⟩ := giveBack_cons h
    obtain ⟨hlive', hreturning', hwaiting'⟩ := ih hreturning
    exact ⟨hlive'.trans hlive, hreturning', fun await => (hwaiting' await).trans (hwaiting await)⟩

theorem Inv.completes (h : Inv cfg s 0 0) (hconcurrency : 1 ≤ cfg.concurrency) (hlive : s.live = [])
    {await : Await} (hwaiting : s.waitingCalls await ≠ []) :
    ∃ await, ∃ call ∈ s.waitingCalls await, s.returned.Completes await call := by
  obtain ⟨hlive', hreturning, hcalls⟩ := run_giveBack s.returning rfl
  have hinv := h.run (s.returning.map .giveBack)
  by_cases hbytes : s.returned.bytes.waiting = []
  · have hslots : s.returned.slots.waiting ≠ [] := by
      intro hslots
      refine hwaiting ((hcalls await).symm.trans ?_)
      cases await with
      | slots => exact map_eq_nil_iff.mpr hslots
      | bytes => exact map_eq_nil_iff.mpr hbytes
    obtain ⟨call, hcall, hcompletes⟩ := hinv.completes_slots hconcurrency (hlive'.trans hlive) hreturning hbytes hslots
    exact ⟨.slots, call, hcalls .slots ▸ hcall, hcompletes⟩
  · obtain ⟨call, hcall, hcompletes⟩ := hinv.completes_bytes (hlive'.trans hlive) hreturning hbytes
    exact ⟨.bytes, call, hcalls .bytes ▸ hcall, hcompletes⟩

/-- In every schedule the live admissions fit the budget, and a call completes once nothing is live. -/
theorem kdf_budget_respected (cfg : KdfBudgetConfig) (start : KdfBudget ι) (hnew : new cfg = some start)
    (hcap : cfg.totalBytes ≤ (2 ^ 32 - 1) * mib) (steps : List (BudgetStep ι)) :
    let s := start.run steps
    s.live.length ≤ cfg.concurrency ∧
      (∀ admission ∈ s.live, cfg.totalBytes < admission.call.bytes → s.live = [admission]) ∧
      ((∀ admission ∈ s.live, admission.call.bytes ≤ cfg.totalBytes) →
        (s.live.map fun admission => mibUnits admission.call.bytes).sum ≤ mibUnits cfg.totalBytes) ∧
      (s.live = [] → ∀ await, s.waitingCalls await ≠ [] →
        ∃ await, ∃ call ∈ s.waitingCalls await, s.returned.Completes await call) := by
  intro s
  have hconcurrency : 1 ≤ cfg.concurrency := by
    by_contra hnot
    rw [new, if_neg hnot] at hnew
    cases hnew
  have hinv : Inv cfg s 0 0 := (Inv.new hnew).run steps
  refine ⟨Nat.le_trans (length_le_slots hconcurrency hinv.live) hinv.slots_le, ?_, hinv.bytes_le hcap, ?_⟩
  · exact fun admission hadmission hover => hinv.alone hconcurrency hadmission hover
  · exact fun hlive await hwaiting => hinv.completes hconcurrency hlive hwaiting

theorem totalBytes_fromKeymanager (concurrency totalMib maxKeystoreMib : UInt32) :
    (KdfBudgetConfig.fromKeymanager concurrency totalMib maxKeystoreMib).totalBytes ≤ (2 ^ 32 - 1) * mib :=
  Nat.mul_le_mul_right mib (Nat.le_sub_one_of_lt totalMib.toNat_lt)

/-- The defaults: two slots, 512 MiB, and 1 GiB for one keystore. -/
def defaultBudget : KdfBudget Nat := ⟨.new 2, .new 512, .fromKeymanager 2 512 1024, [], []⟩

/-- A keystore of 600 MiB is admitted alone, one of 100 MiB waits for a slot, and the admission is dropped. -/
def dropWhileWaiting : List (BudgetStep Nat) := [.admitCall 0 (600 * mib), .admitCall 1 (100 * mib), .drop 0]

theorem kdf_budget_respected_default : (defaultBudget.run dropWhileWaiting).waitingCalls .slots = [⟨1, 100 * mib⟩] ∧
      (defaultBudget.run dropWhileWaiting).returning = [.slots 2] ∧
      ∃ await, ∃ call ∈ (defaultBudget.run dropWhileWaiting).waitingCalls await,
        (defaultBudget.run dropWhileWaiting).returned.Completes await call := by
  have hwaiting : (defaultBudget.run dropWhileWaiting).waitingCalls .slots = [⟨1, 100 * mib⟩] := by decide +kernel
  obtain ⟨-, -, -, hprogress⟩ := kdf_budget_respected (.fromKeymanager 2 512 1024) defaultBudget (by decide +kernel)
    (totalBytes_fromKeymanager 2 512 1024) dropWhileWaiting
  exact ⟨hwaiting, by decide +kernel, hprogress (by decide +kernel) .slots (by rw [hwaiting]; simp)⟩

/-- Two slots, and caps of a byte less than `2 ^ 32` mebibytes. -/
def saturatedBudget : KdfBudget Nat :=
  ⟨.new 2, .new (2 ^ 32), ⟨2, 2 ^ 32 * mib - 1, 2 ^ 32 * mib - 1⟩, [], []⟩

/-- A keystore of the whole budget is charged a mebibyte less than it rounds to, which admits another one. -/
theorem saturated_budget_exceeded :
    let cfg : KdfBudgetConfig := ⟨2, 2 ^ 32 * mib - 1, 2 ^ 32 * mib - 1⟩
    let s := saturatedBudget.run [.admitCall 0 (2 ^ 32 * mib - 1), .admitCall 1 1]
    new cfg = some saturatedBudget ∧ cfg.totalBytes < 2 ^ 32 * mib ∧ cfg.maxKeystoreBytes < 2 ^ 32 * mib ∧
      (∀ admission ∈ s.live, admission.call.bytes ≤ cfg.totalBytes) ∧
      mibUnits cfg.totalBytes < (s.live.map fun admission => mibUnits admission.call.bytes).sum := by
  decide +kernel

end KdfBudget

end Rvc.KeymanagerAdapters
