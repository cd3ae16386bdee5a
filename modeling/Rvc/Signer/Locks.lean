import Rvc.Lib.Hex
import Rvc.Lib.Table

/-!
# The per-validator locks

`ValidatorLockMap` hands out one mutex per public key and forgets, when it is full, the mutexes nobody
holds a reference to. The state keeps every live `Arc` outside the map: one that `get` returned, one
inside a waiting `lock`, one inside a guard. The mutex of the map is held during all of `get`, and a
reference comes only from `get` or from another reference, so `get` is one step.

`LockInv` is the invariant: a live handle's mutex is the one the map has for its key. A sweep keeps it
because it only drops entries without a handle, and mutual exclusion per key follows.
-/

namespace Rvc.Signer

open Rvc.Lib List Bool Nat

abbrev PubkeyBytes := Hex.Bytes 48

/-! ### The map -/

inductive HandleUse where
  /-- An `Arc` returned by `get`, or left over from a dropped guard. -/
  | arc
  | waiting
  | guard
  deriving DecidableEq

/-- A live reference outside the map, with the key it was obtained for. -/
structure Handle where
  pubkey : PubkeyBytes
  mutex : Nat
  use : HandleUse
  deriving DecidableEq

/-- `ValidatorLockMap`, and the references outside it. Mutexes are numbered as they are created. -/
structure LockState where
  map : Table PubkeyBytes Nat
  overflowWarned : Bool
  handles : List Handle
  next : Nat

namespace LockState

def new : LockState := ⟨∅, false, [], 0⟩

def strongCount (s : LockState) (mutex : Nat) : Nat :=
  1 + s.handles.countP fun h => h.mutex = mutex

def sweep (capacity : Nat) (s : LockState) : LockState :=
  let map := s.map.retain fun mutex => 1 < s.strongCount mutex
  -- still full: warned, now or before; otherwise the warning is armed again
  { s with map := map, overflowWarned := capacity ≤ map.len }

def insertNew (pubkey : PubkeyBytes) (s : LockState) : LockState :=
  { s with
    map := s.map.insert pubkey s.next
    handles := ⟨pubkey, s.next, .arc⟩ :: s.handles
    next := s.next + 1 }

def get (capacity : Nat) (pubkey : PubkeyBytes) (s : LockState) : LockState :=
  match s.map.lookup pubkey with
  | some mutex => { s with handles := ⟨pubkey, mutex, .arc⟩ :: s.handles }
  | none =>
      if capacity ≤ s.map.len then (s.sweep capacity).insertNew pubkey
      else s.insertNew pubkey

def guards (s : LockState) (mutex : Nat) : Nat :=
  s.handles.countP fun h => h.mutex = mutex && h.use = .guard

def held (s : LockState) (pubkey : PubkeyBytes) : Nat :=
  s.handles.countP fun h => h.pubkey = pubkey && h.use = .guard

end LockState

/-! ### Tasks -/

inductive LockEvent where
  | quiet
  | acquired (pubkey : PubkeyBytes)
  | released (pubkey : PubkeyBytes)

inductive LockStep (capacity : Nat) : LockEvent → LockState → LockState → Prop
  | get {s : LockState} (pubkey : PubkeyBytes) : LockStep capacity .quiet s (s.get capacity pubkey)
  | clone {s : LockState} {h : Handle} (hmem : h ∈ s.handles) (huse : h.use = .arc) :
      LockStep capacity .quiet s { s with handles := h :: s.handles }
  | wait {s : LockState} (left right : List Handle) {pubkey : PubkeyBytes} {mutex : Nat}
      (h : s.handles = left ++ ⟨pubkey, mutex, .arc⟩ :: right) :
      LockStep capacity .quiet s { s with handles := left ++ ⟨pubkey, mutex, .waiting⟩ :: right }
  | acquire {s : LockState} (left right : List Handle) {pubkey : PubkeyBytes} {mutex : Nat}
      (h : s.handles = left ++ ⟨pubkey, mutex, .waiting⟩ :: right) (hfree : s.guards mutex = 0) :
      LockStep capacity (.acquired pubkey) s
        { s with handles := left ++ ⟨pubkey, mutex, .guard⟩ :: right }
  /-- A dropped guard releases the mutex first and its reference after. -/
  | release {s : LockState} (left right : List Handle) {pubkey : PubkeyBytes} {mutex : Nat}
      (h : s.handles = left ++ ⟨pubkey, mutex, .guard⟩ :: right) :
      LockStep capacity (.released pubkey) s
        { s with handles := left ++ ⟨pubkey, mutex, .arc⟩ :: right }
  | drop {s : LockState} (left right : List Handle) {handle : Handle}
      (h : s.handles = left ++ handle :: right) (huse : handle.use ≠ .guard) :
      LockStep capacity .quiet s { s with handles := left ++ right }

def LockStep.Any (capacity : Nat) (s s' : LockState) : Prop := ∃ event, LockStep capacity event s s'

/-! ### The invariant -/

structure LockInv (s : LockState) : Prop where
  /-- A live handle refers to the mutex the map has for its key. -/
  current : ∀ h ∈ s.handles, s.map.lookup h.pubkey = some h.mutex
  exclusive : ∀ mutex, s.guards mutex ≤ 1
  distinct : ∀ pubkey pubkey' mutex, s.map.lookup pubkey = some mutex →
    s.map.lookup pubkey' = some mutex → pubkey = pubkey'
  fresh : ∀ pubkey mutex, s.map.lookup pubkey = some mutex → mutex < s.next

theorem LockInv.new : LockInv .new := by
  refine ⟨nofun, fun _ => zero_le _, fun _ _ _ h => ?_, fun _ _ h => ?_⟩ <;> cases h

variable {capacity : Nat} {s s' : LockState} {pubkey : PubkeyBytes} {mutex : Nat}

open LockState

theorem one_lt_strongCount : 1 < s.strongCount mutex ↔ ∃ h ∈ s.handles, h.mutex = mutex := by
  have hpos : 1 < s.strongCount mutex ↔ 0 < s.handles.countP fun h => h.mutex = mutex := by
    unfold strongCount
    omega
  rw [hpos, countP_pos_iff]
  simp only [decide_eq_true_eq]

theorem lookup_sweep : (s.sweep capacity).map.lookup pubkey = some mutex ↔
    s.map.lookup pubkey = some mutex ∧ ∃ h ∈ s.handles, h.mutex = mutex := by
  rw [sweep, Table.lookup_retain, Option.filter_eq_some_iff, decide_eq_true_eq, one_lt_strongCount]

theorem lookup_sweep_none (h : s.map.lookup pubkey = none) : (s.sweep capacity).map.lookup pubkey = none := by
  rw [Option.eq_none_iff_forall_ne_some]
  intro mutex hsome
  rw [(lookup_sweep.mp hsome).1] at h
  cases h

theorem LockInv.sweep (h : LockInv s) : LockInv (s.sweep capacity) where
  current handle hmem := lookup_sweep.mpr ⟨h.current handle hmem, handle, hmem, rfl⟩
  exclusive := h.exclusive
  distinct pubkey pubkey' mutex hp hp' :=
    h.distinct pubkey pubkey' mutex (lookup_sweep.mp hp).1 (lookup_sweep.mp hp').1
  fresh pubkey mutex hp := h.fresh pubkey mutex (lookup_sweep.mp hp).1

/-- The handles may change as long as each refers to its key's mutex and no mutex is held twice. -/
theorem LockInv.withHandles (h : LockInv s) {handles : List Handle}
    (hcurrent : ∀ x ∈ handles, s.map.lookup x.pubkey = some x.mutex)
    (hexclusive : ∀ mutex, (handles.countP fun x => x.mutex = mutex && x.use = .guard) ≤ 1) :
    LockInv { s with handles := handles } :=
  ⟨hcurrent, hexclusive, h.distinct, h.fresh⟩

theorem LockInv.cons (h : LockInv s) {handle : Handle}
    (hcurrent : s.map.lookup handle.pubkey = some handle.mutex) (huse : handle.use = .arc) :
    LockInv { s with handles := handle :: s.handles } := by
  refine h.withHandles ?_ fun mutex => ?_
  · intro x hx
    rcases mem_cons.mp hx with rfl | hx
    · exact hcurrent
    · exact h.current x hx
  · simpa [huse, guards] using h.exclusive mutex

theorem lookup_insertNew {pubkey' : PubkeyBytes} : (s.insertNew pubkey).map.lookup pubkey' =
      if pubkey' = pubkey then some s.next else s.map.lookup pubkey' := by
  split
  case isTrue heq =>
    subst heq
    exact AList.lookup_insert _
  case isFalse hne => exact AList.lookup_insert_ne hne

theorem LockInv.insertNew (h : LockInv s) (hnone : s.map.lookup pubkey = none) : LockInv (s.insertNew pubkey) where
  current handle hmem := by
    rw [lookup_insertNew]
    rcases mem_cons.mp hmem with rfl | hmem
    · exact if_pos rfl
    · -- nobody can refer to the mutex of a key that has no entry
      have hcurrent := h.current handle hmem
      have hne : handle.pubkey ≠ pubkey := by
        intro heq
        rw [heq, hnone] at hcurrent
        cases hcurrent
      rw [if_neg hne, hcurrent]
  exclusive mutex := by simpa [LockState.guards, LockState.insertNew] using h.exclusive mutex
  distinct k k' mutex hk hk' := by
    rw [lookup_insertNew] at hk hk'
    split at hk <;> split at hk'
    case isTrue.isTrue heq heq' => exact heq.trans heq'.symm
    case isTrue.isFalse => exact absurd (h.fresh k' mutex hk') (by cases hk; exact lt_irrefl _)
    case isFalse.isTrue => exact absurd (h.fresh k mutex hk) (by cases hk'; exact lt_irrefl _)
    case isFalse.isFalse => exact h.distinct k k' mutex hk hk'
  fresh k mutex hk := by
    rw [lookup_insertNew] at hk
    split at hk
    · cases hk
      exact lt_succ_self _
    · exact lt_succ_of_lt (h.fresh k mutex hk)

theorem LockInv.get (h : LockInv s) (pubkey : PubkeyBytes) : LockInv (s.get capacity pubkey) := by
  unfold LockState.get
  cases hlookup : s.map.lookup pubkey with
  | some mutex => exact h.cons hlookup rfl
  | none =>
    dsimp only
    split
    · exact h.sweep.insertNew (lookup_sweep_none hlookup)
    · exact h.insertNew hlookup

theorem LockInv.reuse (h : LockInv s) {left right : List Handle} {use use' : HandleUse}
    (hs : s.handles = left ++ ⟨pubkey, mutex, use⟩ :: right) (hfree : use' = .guard → s.guards mutex = 0) :
    LockInv { s with handles := left ++ ⟨pubkey, mutex, use'⟩ :: right } := by
  have hcurrent := h.current
  have hexclusive := h.exclusive
  rw [hs] at hcurrent
  refine h.withHandles (fun x hx => ?_) fun m => ?_
  · simp only [mem_append, mem_cons] at hx hcurrent
    rcases hx with hx | rfl | hx
    · exact hcurrent x (.inl hx)
    · exact hcurrent ⟨pubkey, mutex, use⟩ (.inr (.inl rfl))
    · exact hcurrent x (.inr (.inr hx))
  · have hm := hexclusive m
    simp only [guards, hs, countP_append, countP_cons] at hm hfree ⊢
    by_cases huse : use' = .guard
    · by_cases hmutex : mutex = m
      · subst hmutex
        have := hfree huse
        split <;> omega
      · simp only [hmutex, decide_false, Bool.false_and, Bool.false_eq_true, if_false] at hm ⊢
        exact hm
    · simp only [huse, decide_false, Bool.and_false, Bool.false_eq_true, if_false]
      omega

theorem LockInv.step {event : LockEvent} (h : LockInv s) (hstep : LockStep capacity event s s') : LockInv s' := by
  cases hstep with
  | get pubkey => exact h.get pubkey
  | clone hmem huse => exact h.cons (h.current _ hmem) huse
  | wait left right hs => exact h.reuse hs nofun
  | acquire left right hs hfree => exact h.reuse hs fun _ => hfree
  | release left right hs => exact h.reuse hs nofun
  | @drop _ left right handle hs huse =>
    have hsub : (left ++ right).Sublist s.handles := by
      rw [hs]
      exact (sublist_cons_self handle right).append_left left
    refine h.withHandles (fun x hx => h.current x (hsub.subset hx)) fun m => ?_
    exact le_trans hsub.countP_le (h.exclusive m)

theorem LockInv.run (hrun : Relation.ReflTransGen (LockStep.Any capacity) .new s) : LockInv s := by
  induction hrun with
  | refl => exact .new
  | tail _ hstep ih =>
    obtain ⟨event, hstep⟩ := hstep
    exact ih.step hstep

/-! ### Mutual exclusion -/

theorem LockInv.held_le (h : LockInv s) (pubkey : PubkeyBytes) : s.held pubkey ≤ 1 := by
  cases hlookup : s.map.lookup pubkey with
  | none =>
    have hzero : s.held pubkey = 0 := by
      refine countP_eq_zero.mpr fun x hx hguard => ?_
      have hcurrent := h.current x hx
      simp only [and_eq_true, decide_eq_true_eq] at hguard
      rw [hguard.1, hlookup] at hcurrent
      cases hcurrent
    omega
  | some mutex =>
    refine le_trans (countP_mono_left fun x hx hguard => ?_) (h.exclusive mutex)
    have hcurrent := h.current x hx
    simp only [and_eq_true, decide_eq_true_eq] at hguard ⊢
    rw [hguard.1, hlookup] at hcurrent
    exact ⟨(Option.some.inj hcurrent).symm, hguard.2⟩

theorem held_reuse {left right : List Handle} {use : HandleUse} (use' : HandleUse)
    (hs : s.handles = left ++ ⟨pubkey, mutex, use⟩ :: right) (pubkey' : PubkeyBytes) :
    ({ s with handles := left ++ ⟨pubkey, mutex, use'⟩ :: right } : LockState).held pubkey' +
        (if pubkey = pubkey' ∧ use = .guard then 1 else 0) =
      s.held pubkey' + if pubkey = pubkey' ∧ use' = .guard then 1 else 0 := by
  simp only [held, hs, countP_append, countP_cons, and_eq_true, decide_eq_true_eq]
  omega

theorem held_get (pubkey' : PubkeyBytes) : (s.get capacity pubkey).held pubkey' = s.held pubkey' := by
  unfold LockState.get
  cases s.map.lookup pubkey with
  | some mutex => simp [LockState.held]
  | none =>
    dsimp only
    split <;> simp [LockState.held, LockState.insertNew, LockState.sweep]

theorem LockStep.held_quiet (h : LockStep capacity .quiet s s') (pubkey : PubkeyBytes) :
    s'.held pubkey = s.held pubkey := by
  cases h with
  | get => exact held_get pubkey
  | clone hmem huse => simp [held, huse]
  | wait left right hs => simpa using held_reuse .waiting hs pubkey
  | drop left right hs huse => simp [held, hs, huse]

theorem LockStep.held_acquired (h : LockStep capacity (.acquired pubkey) s s') (pubkey' : PubkeyBytes) :
    s'.held pubkey' = s.held pubkey' + if pubkey = pubkey' then 1 else 0 := by
  cases h with
  | acquire left right hs hfree => simpa using held_reuse .guard hs pubkey'

theorem LockStep.held_released (h : LockStep capacity (.released pubkey) s s') (pubkey' : PubkeyBytes) :
    s'.held pubkey' + (if pubkey = pubkey' then 1 else 0) = s.held pubkey' := by
  cases h with
  | release left right hs => simpa using held_reuse .arc hs pubkey'

theorem LockInv.get_over_capacity (h : LockInv s) (hnone : s.map.lookup pubkey = none)
    (hover : capacity < (s.get capacity pubkey).map.len) {pubkey' : PubkeyBytes} (hne : pubkey' ≠ pubkey)
    (hentry : (s.get capacity pubkey).map.lookup pubkey' = some mutex) :
    ∃ x ∈ (s.get capacity pubkey).handles, x.pubkey = pubkey' ∧ x.mutex = mutex := by
  by_cases hfull : capacity ≤ s.map.len
  · have hget : s.get capacity pubkey = (s.sweep capacity).insertNew pubkey := by
      rw [LockState.get, hnone]
      exact if_pos hfull
    rw [hget] at hentry ⊢
    rw [lookup_insertNew, if_neg hne] at hentry
    obtain ⟨hlookup, x, hx, rfl⟩ := lookup_sweep.mp hentry
    -- the mutex has no other key, so the reference was obtained for this one
    refine ⟨x, mem_cons_of_mem _ hx, ?_, rfl⟩
    exact h.distinct _ _ _ (h.current x hx) hlookup
  · have hget : s.get capacity pubkey = s.insertNew pubkey := by
      rw [LockState.get, hnone]
      exact if_neg hfull
    rw [hget, LockState.insertNew, Table.len_insert hnone] at hover
    omega

/-- **One mutex per validator.** In every interleaving the live handles of a key share one mutex, a key
has at most one guard, and an insertion that goes over the capacity finds every other entry in use. -/
theorem lock_map_exclusive (hrun : Relation.ReflTransGen (LockStep.Any capacity) .new s) :
    (∀ x ∈ s.handles, ∀ y ∈ s.handles, x.pubkey = y.pubkey → x.mutex = y.mutex) ∧ (∀ pubkey, s.held pubkey ≤ 1) ∧
    (∀ pubkey, s.map.lookup pubkey = none → capacity < (s.get capacity pubkey).map.len →
      ∀ pubkey' mutex, pubkey' ≠ pubkey → (s.get capacity pubkey).map.lookup pubkey' = some mutex →
        ∃ x ∈ (s.get capacity pubkey).handles, x.pubkey = pubkey' ∧ x.mutex = mutex) := by
  have hinv := LockInv.run hrun
  refine ⟨fun x hx y hy hkey => ?_, hinv.held_le, fun pubkey hnone hover pubkey' mutex hne hentry =>
    hinv.get_over_capacity hnone hover hne hentry⟩
  have hx := hinv.current x hx
  rw [hkey, hinv.current y hy] at hx
  exact (Option.some.inj hx).symm

/-- Capacity zero: a key is locked, and its entry survives the sweep that another key's `get` makes. -/
theorem lock_map_exclusive_zeroCapacity :
    let key (b : UInt8) : PubkeyBytes := ⟨List.replicate 48 b, rfl⟩
    let s : LockState := { LockState.new.get 0 (key 1) with handles := [⟨key 1, 0, .guard⟩] }
    s.held (key 1) ≤ 1 ∧
    ∃ x ∈ (s.get 0 (key 2)).handles, x.pubkey = key 1 ∧ x.mutex = 0 := by
  intro key s
  let opened : LockState := new.get 0 (key 1)
  let queued : LockState := { opened with handles := [⟨key 1, 0, .waiting⟩] }
  have hget : LockStep.Any 0 .new opened := ⟨_, .get (key 1)⟩
  have hwait : LockStep.Any 0 opened queued := ⟨_, .wait [] [] rfl⟩
  have hacquire : LockStep.Any 0 queued s := ⟨_, .acquire [] [] rfl rfl⟩
  obtain ⟨-, hheld, hover⟩ :=
    lock_map_exclusive (((Relation.ReflTransGen.single hget).tail hwait).tail hacquire)
  exact ⟨hheld _, hover (key 2) (by decide) (by decide) (key 1) 0 (by decide) (by decide)⟩

end Rvc.Signer
