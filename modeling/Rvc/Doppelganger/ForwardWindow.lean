import Mathlib.Data.Finset.Insert
import Mathlib.Order.Interval.Finset.Nat
import Rvc.Lib.Hex
import Rvc.Lib.Table

/-!
# The forward-window doppelganger machine

A registered validator is withheld from signing until every epoch of its monitoring window has been
observed, none of the observations had it live, and the last slot of the window is over. The machine is
a map from the hex of the public key; `lookup_step` says that it is one small automaton per key
(`validatorStep`), which is all that later proofs use.
-/

namespace Rvc.Doppelganger

open Rvc.Lib List AList

/-! ### States -/

abbrev PublicKey := Hex.Bytes 48

def pubkeyHex (pubkey : PublicKey) : String := Hex.encode pubkey.1

theorem pubkeyHex_injective : Function.Injective pubkeyHex := fun _ _ h =>
  Subtype.ext (Hex.encode_injective h)

inductive ValidatorState where
  | unmonitored
  | pending (startEpoch endEpoch : Nat) (observedEpochs : Finset Nat)
  | safe
  | detected
  deriving DecidableEq

inductive ForwardWindowStatus where
  | unmonitored
  | pending
  | safe
  | detected
  deriving DecidableEq

/-- `DoppelgangerError`, of which the machine returns one variant. -/
inductive DoppelgangerError where
  | incompleteLiveness (epoch missingCount : Nat)
  deriving DecidableEq

/-- `ValidatorLivenessData`; `index` is the hex of the public key. -/
structure ValidatorLivenessData where
  index : String
  isLive : Bool
  deriving DecidableEq

structure ForwardWindowMachine where
  states : Table String ValidatorState
  monitoringEpochs : Nat
  monitoringEpochs_pos : 1 ≤ monitoringEpochs

def slotsPerEpoch : Nat := 32

def saturatingAdd (a b : Nat) : Nat := min (a + b) (2 ^ 64 - 1)

/-! ### Operations -/

def shouldSkipRestartMonitoring (currentEpoch : Nat) (lastSignedEpoch : Option Nat) (monitoringEpochs : Nat) : Bool :=
  match lastSignedEpoch with
  | none => false
  | some epoch =>
      if currentEpoch < epoch then
        false
      else
        monitoringEpochs < currentEpoch && currentEpoch - epoch ≤ monitoringEpochs

section

variable (m : ForwardWindowMachine) (key : String)

/-- The idempotency guard: a state other than `Unmonitored` stays. -/
def ForwardWindowMachine.isRegistered : Bool :=
  match m.states.lookup key with
  | some state => state ≠ .unmonitored
  | none => false

def ForwardWindowMachine.put (state : ValidatorState) : ForwardWindowMachine :=
  { m with states := m.states.insert key state }

def openWindow (monitoringEpochs currentEpoch : Nat) : ValidatorState :=
  .pending currentEpoch (saturatingAdd currentEpoch monitoringEpochs) ∅

/-- `register`; `prior` is what the slashing database answers for the last signed attestation. -/
def ForwardWindowMachine.register (pubkey : PublicKey) (currentEpoch : Nat)
    (prior : Option Nat) : ForwardWindowMachine :=
  if m.isRegistered (pubkeyHex pubkey) then
    m
  else if currentEpoch = 0 then
    m.put (pubkeyHex pubkey) .safe
  else if shouldSkipRestartMonitoring currentEpoch prior m.monitoringEpochs then
    m.put (pubkeyHex pubkey) .safe
  else
    m.put (pubkeyHex pubkey) (openWindow m.monitoringEpochs currentEpoch)

def ForwardWindowMachine.registerForImport (pubkey : PublicKey) (currentEpoch : Nat) : ForwardWindowMachine :=
  if m.isRegistered (pubkeyHex pubkey) then
    m
  else
    m.put (pubkeyHex pubkey) (openWindow m.monitoringEpochs currentEpoch)

end

def boundaryReached (endEpoch currentEpoch slotInEpoch : Nat) : Bool :=
  (currentEpoch = endEpoch && slotsPerEpoch - 1 ≤ slotInEpoch) || endEpoch < currentEpoch

def tickState (currentEpoch slotInEpoch : Nat) : ValidatorState → ValidatorState
  | .pending startEpoch endEpoch observed =>
      if boundaryReached endEpoch currentEpoch slotInEpoch &&
          decide (∀ e ∈ Finset.Icc startEpoch endEpoch, e ∈ observed) then
        .safe
      else
        .pending startEpoch endEpoch observed
  | state => state

def statusOf : ValidatorState → ForwardWindowStatus
  | .unmonitored => .unmonitored
  | .pending _ _ _ => .pending
  | .safe => .safe
  | .detected => .detected

section

variable (m : ForwardWindowMachine)

def ForwardWindowMachine.tick (currentEpoch slotInEpoch : Nat) : List ForwardWindowStatus × ForwardWindowMachine :=
  let states := m.states.mapValues (tickState currentEpoch slotInEpoch)
  (states.entries.map fun e => statusOf e.2, { m with states := states })

/-- The lookup map of `observe_liveness`: an entry seen twice is live if it ever was. -/
def response (samples : List ValidatorLivenessData) : Table String Bool :=
  samples.foldl (fun table sample =>
    table.insert sample.index (match table.lookup sample.index with
      | some live => live || sample.isLive
      | none => sample.isLive)) ∅

def inWindow (epoch : Nat) : ValidatorState → Bool
  | .pending startEpoch endEpoch _ => startEpoch ≤ epoch && epoch ≤ endEpoch
  | _ => false

/-- Phase 1: the validators an answer for `epoch` has to cover. -/
def ForwardWindowMachine.pendingInWindowKeys (epoch : Nat) : List String :=
  (m.states.entries.filter fun e => inWindow epoch e.2).map Sigma.fst

def observeState (epoch : Nat) (isLive : Bool) (state : ValidatorState) : ValidatorState :=
  if isLive then
    .detected
  else
    match state with
    | .pending startEpoch endEpoch observed => .pending startEpoch endEpoch (insert epoch observed)
    | state => state

/-- Phase 2, for one key: the states and `missing_count` so far. -/
def observeKey (epoch : Nat) (answers : Table String Bool) (acc : Table String ValidatorState × Nat)
    (key : String) : Table String ValidatorState × Nat :=
  match acc.1.lookup key with
  | none => acc
  | some state =>
      match answers.lookup key with
      | some isLive => (acc.1.insert key (observeState epoch isLive state), acc.2)
      | none => (acc.1, acc.2 + 1)

def ForwardWindowMachine.observeLiveness (epoch : Nat)
    (samples : List ValidatorLivenessData) : Except DoppelgangerError Unit × ForwardWindowMachine :=
  let acc := (m.pendingInWindowKeys epoch).foldl (observeKey epoch (response samples)) (m.states, 0)
  (if 0 < acc.2 then .error (.incompleteLiveness epoch acc.2) else .ok (), { m with states := acc.1 })

def ForwardWindowMachine.cancel (pubkey : PublicKey) : ForwardWindowMachine :=
  { m with states := m.states.erase (pubkeyHex pubkey) }

def ForwardWindowMachine.status (pubkey : PublicKey) : ForwardWindowStatus :=
  match m.states.lookup (pubkeyHex pubkey) with
  | none => .unmonitored
  | some state => statusOf state

def ForwardWindowMachine.isSigningEnabled (pubkey : PublicKey) : Bool :=
  m.status pubkey = .safe

/-! ### Runs -/

inductive Op where
  | register (pubkey : PublicKey) (currentEpoch : Nat) (prior : Option Nat)
  | registerForImport (pubkey : PublicKey) (currentEpoch : Nat)
  | observeLiveness (epoch : Nat) (samples : List ValidatorLivenessData)
  | tick (currentEpoch slotInEpoch : Nat)
  | cancel (pubkey : PublicKey)
  deriving DecidableEq

def ForwardWindowMachine.step : Op → ForwardWindowMachine
  | .register pubkey epoch prior => m.register pubkey epoch prior
  | .registerForImport pubkey epoch => m.registerForImport pubkey epoch
  | .observeLiveness epoch samples => (m.observeLiveness epoch samples).2
  | .tick epoch slot => (m.tick epoch slot).2
  | .cancel pubkey => m.cancel pubkey

def ForwardWindowMachine.run (ops : List Op) : ForwardWindowMachine :=
  ops.foldl ForwardWindowMachine.step m

end

def ForwardWindowMachine.new (monitoringEpochs : Nat) (h : 1 ≤ monitoringEpochs) : ForwardWindowMachine :=
  ⟨∅, monitoringEpochs, h⟩

/-! ### One automaton per key -/

def answerState (epoch : Nat) (answer : Option Bool) (state : ValidatorState) : ValidatorState :=
  answer.elim state fun live => observeState epoch live state

def registeredState (monitoringEpochs epoch : Nat) (prior : Option Nat) : ValidatorState :=
  if epoch = 0 ∨ shouldSkipRestartMonitoring epoch prior monitoringEpochs then .safe
  else openWindow monitoringEpochs epoch

def validatorStep (monitoringEpochs : Nat) (pubkey : PublicKey) (op : Op)
    (state : Option ValidatorState) : Option ValidatorState :=
  match op with
  | .register pk epoch prior =>
      if pk ≠ pubkey ∨ ∃ s ∈ state, s ≠ .unmonitored then
        state
      else
        some (registeredState monitoringEpochs epoch prior)
  | .registerForImport pk epoch =>
      if pk ≠ pubkey ∨ ∃ s ∈ state, s ≠ .unmonitored then
        state
      else
        some (openWindow monitoringEpochs epoch)
  | .observeLiveness epoch samples =>
      state.map fun s =>
        if inWindow epoch s then
          answerState epoch ((response samples).lookup (pubkeyHex pubkey)) s
        else
          s
  | .tick epoch slot => state.map (tickState epoch slot)
  | .cancel pk => if pk = pubkey then none else state

open ForwardWindowMachine

theorem isRegistered_iff (m : ForwardWindowMachine) (key : String) :
    m.isRegistered key = true ↔ ∃ s ∈ m.states.lookup key, s ≠ .unmonitored := by
  unfold isRegistered
  cases m.states.lookup key with
  | none | some state => simp

theorem register_eq (m : ForwardWindowMachine) (pk : PublicKey) (epoch : Nat) (prior : Option Nat) :
    m.register pk epoch prior =
      if m.isRegistered (pubkeyHex pk) then m
      else m.put (pubkeyHex pk) (registeredState m.monitoringEpochs epoch prior) := by
  unfold register registeredState
  by_cases hzero : epoch = 0
  · simp [hzero]
  · by_cases hskip : shouldSkipRestartMonitoring epoch prior m.monitoringEpochs
    · simp [hzero, hskip]
    · simp [hzero, hskip]

theorem lookup_guarded_put (m : ForwardWindowMachine) (pk pubkey : PublicKey) (state : ValidatorState) :
    (if m.isRegistered (pubkeyHex pk) then m else m.put (pubkeyHex pk) state).states.lookup (pubkeyHex pubkey) =
      if pk ≠ pubkey ∨ ∃ s ∈ m.states.lookup (pubkeyHex pubkey), s ≠ .unmonitored then
        m.states.lookup (pubkeyHex pubkey) else
        some state := by
  by_cases hpk : pk = pubkey
  · subst hpk
    by_cases hreg : m.isRegistered (pubkeyHex pk) = true
    · rw [if_pos hreg, if_pos (.inr ((isRegistered_iff m _).mp hreg))]
    · have hnot : ¬ (pk ≠ pk ∨ ∃ s ∈ m.states.lookup (pubkeyHex pk), s ≠ .unmonitored) := by
        rintro (hne | hex)
        · exact hne rfl
        · exact hreg ((isRegistered_iff m _).mpr hex)
      rw [if_neg hreg, if_neg hnot]
      exact lookup_insert _
  · have hother : pk ≠ pubkey ∨ ∃ s ∈ m.states.lookup (pubkeyHex pubkey), s ≠ .unmonitored := .inl hpk
    split
    · rfl
    · exact lookup_insert_ne fun h => hpk (pubkeyHex_injective h).symm

theorem observeKey_lookup (epoch : Nat) (answers : Table String Bool)
    (acc : Table String ValidatorState × Nat) (key' key : String) : (observeKey epoch answers acc key').1.lookup key =
      if key = key' then (acc.1.lookup key).map (answerState epoch (answers.lookup key))
      else acc.1.lookup key := by
  unfold observeKey
  by_cases hkey : key = key'
  · subst hkey
    cases hstate : acc.1.lookup key with
    | none => simp [hstate]
    | some state =>
      cases hanswer : answers.lookup key with
      | none => simp [hstate, answerState]
      | some live => simp [answerState]
  · rw [if_neg hkey]
    cases acc.1.lookup key' with
    | none => rfl
    | some state =>
      cases answers.lookup key' with
      | none => rfl
      | some live => exact lookup_insert_ne hkey

theorem observeKeys_lookup (epoch : Nat) (answers : Table String Bool) {keys : List String}
    (hkeys : keys.Nodup) (acc : Table String ValidatorState × Nat) (key : String) :
    (keys.foldl (observeKey epoch answers) acc).1.lookup key =
      if key ∈ keys then (acc.1.lookup key).map (answerState epoch (answers.lookup key))
      else acc.1.lookup key := by
  induction keys generalizing acc with
  | nil => rfl
  | cons head rest ih =>
    obtain ⟨hhead, hrest⟩ := nodup_cons.mp hkeys
    rw [foldl_cons, ih hrest, observeKey_lookup]
    by_cases hkey : key = head
    · subst hkey
      rw [if_neg hhead, if_pos rfl, if_pos mem_cons_self]
    · simp [hkey]

theorem nodup_pendingInWindowKeys (m : ForwardWindowMachine) (epoch : Nat) : (m.pendingInWindowKeys epoch).Nodup := by
  have hsub : (m.pendingInWindowKeys epoch).Sublist m.states.keys := filter_sublist.map _
  exact hsub.nodup m.states.keys_nodup

theorem mem_pendingInWindowKeys {m : ForwardWindowMachine} {epoch : Nat} {key : String}
    {state : ValidatorState} (h : m.states.lookup key = some state) :
    key ∈ m.pendingInWindowKeys epoch ↔ inWindow epoch state = true := by
  unfold pendingInWindowKeys
  rw [mem_map]
  constructor
  · rintro ⟨⟨key', state'⟩, hmem, rfl⟩
    obtain ⟨hentry, hwindow⟩ := mem_filter.mp hmem
    have : state' = state := Option.some.inj ((mem_lookup_iff.mpr hentry).symm.trans h)
    exact this ▸ hwindow
  · intro hwindow
    exact ⟨⟨key, state⟩, mem_filter.mpr ⟨mem_lookup_iff.mp h, hwindow⟩, rfl⟩

theorem lookup_step (m : ForwardWindowMachine) (pubkey : PublicKey) (op : Op) :
    (m.step op).states.lookup (pubkeyHex pubkey) =
      validatorStep m.monitoringEpochs pubkey op (m.states.lookup (pubkeyHex pubkey)) := by
  cases op with
  | register pk epoch prior =>
    simp only [step, register_eq]
    exact lookup_guarded_put m pk pubkey _
  | registerForImport pk epoch => exact lookup_guarded_put m pk pubkey _
  | observeLiveness epoch samples =>
    simp only [step, observeLiveness, validatorStep]
    rw [observeKeys_lookup _ _ (nodup_pendingInWindowKeys m epoch)]
    cases hstate : m.states.lookup (pubkeyHex pubkey) with
    | none => simp
    | some state =>
      simp only [mem_pendingInWindowKeys hstate, Option.map_some]
      split <;> rfl
  | tick epoch slot => exact Table.lookup_mapValues _ _ _
  | cancel pk =>
    simp only [step, cancel, validatorStep]
    by_cases hpk : pk = pubkey
    · subst hpk
      rw [if_pos rfl, lookup_erase]
    · rw [if_neg hpk]
      exact lookup_erase_ne fun h => hpk (pubkeyHex_injective h).symm

theorem response_concat (samples : List ValidatorLivenessData) (last : ValidatorLivenessData) :
    response (samples ++ [last]) = (response samples).insert last.index (match (response samples).lookup last.index with
      | some live => live || last.isLive
      | none => last.isLive) := by
  rw [response, foldl_append]
  rfl

theorem lookup_response (samples : List ValidatorLivenessData) (key : String) : (response samples).lookup key =
      match samples.filter fun sample => sample.index = key with
      | [] => none
      | answers => some (answers.any (·.isLive)) := by
  induction samples using List.reverseRecOn with
  | nil => rfl
  | append_singleton samples last ih =>
    rw [response_concat, filter_append]
    by_cases hkey : last.index = key
    · rw [hkey, lookup_insert, ih]
      cases samples.filter fun sample => sample.index = key with
      | nil => simp [hkey]
      | cons first rest => simp [hkey, Bool.or_assoc]
    · rw [lookup_insert_ne (Ne.symm hkey), ih]
      simp [hkey]

theorem no_sample_of_response {samples : List ValidatorLivenessData} {key : String}
    (h : (response samples).lookup key = none) : ∀ sample ∈ samples, sample.index ≠ key := by
  rw [lookup_response] at h
  split at h
  next hnone =>
    intro sample hmem hkey
    have : sample ∈ samples.filter fun sample => sample.index = key := by simp [hmem, hkey]
    simp [hnone] at this
  next => cases h

theorem samples_of_response {samples : List ValidatorLivenessData} {key : String}
    (h : (response samples).lookup key = some false) : (∃ sample ∈ samples, sample.index = key) ∧
      ∀ sample ∈ samples, sample.index = key → sample.isLive = false := by
  rw [lookup_response] at h
  cases hanswers : samples.filter fun sample => sample.index = key with
  | nil => simp [hanswers] at h
  | cons first rest =>
    have hmem : ∀ sample, sample ∈ first :: rest ↔ sample ∈ samples ∧ sample.index = key := by
      intro sample
      rw [← hanswers]
      simp
    rw [hanswers] at h
    have hquiet : ∀ sample ∈ first :: rest, ¬ sample.isLive = true :=
      any_eq_false.mp (Option.some.inj h)
    refine ⟨⟨first, (hmem first).mp mem_cons_self⟩, fun sample hsample hkey => ?_⟩
    simpa using hquiet sample ((hmem sample).mpr ⟨hsample, hkey⟩)

end Rvc.Doppelganger
