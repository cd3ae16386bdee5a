import Mathlib.Data.Finset.Erase
import Mathlib.Data.List.Sort
import Rvc.BnManager.Broadcast

/-!
# Selecting beacon nodes

`BnManager::synced_indices`: the nodes of a role, of the best tier there is, those first that are flagged as incapable
of the operation and have sat out their one selection, then the capable ones by health. The selection itself takes the
skip away, so what it returns next depends on what it returned before.

The scores are floating-point numbers in the source. Here they are any state with a score in a linear order, and the
threshold is any score.
-/

namespace Rvc.BnManager

open Rvc.Lib List Option Nat

/-! ### Tiers -/

inductive HealthTier where
  | synced
  | smallLag
  | largeLag
  | unsynced
  deriving DecidableEq

def HealthTier.asMetricValue : HealthTier → Nat
  | .synced => 1
  | .smallLag => 2
  | .largeLag => 3
  | .unsynced => 4

instance : LE HealthTier := ⟨fun a b => a.asMetricValue ≤ b.asMetricValue⟩

instance (a b : HealthTier) : Decidable (a ≤ b) := inferInstanceAs (Decidable (a.asMetricValue ≤ b.asMetricValue))

structure TierThresholds where
  synced : UInt64
  small : UInt64
  large : UInt64

def TierThresholds.tierForDistance (thresholds : TierThresholds) (distance : UInt64) : HealthTier :=
  if distance ≤ thresholds.synced then .synced
  else if distance ≤ thresholds.synced + thresholds.small then .smallLag
  else if distance ≤ thresholds.synced + thresholds.small + thresholds.large then .largeLag
  else .unsynced

inductive BnSyncStatus where
  | unknown
  | synced
  | syncing
  | elOffline
  | unreachable
  deriving DecidableEq

structure BnSyncDetail where
  status : BnSyncStatus
  syncDistance : Option UInt64

def BnSyncDetail.unknown : BnSyncDetail := ⟨.unknown, none⟩

def BnSyncDetail.tier (detail : BnSyncDetail) (thresholds : TierThresholds) : HealthTier :=
  match detail.status with
  | .unreachable | .unknown | .elOffline => .unsynced
  | .syncing | .synced =>
    match detail.syncDistance with
    | some d => thresholds.tierForDistance d
    | none => if detail.status = .synced then .synced else .unsynced

/-! ### Health trackers -/

structure Scoring (H K : Type) where
  new : H
  recordSuccess : Nat → H → H
  recordError : H → H
  score : H → K
  unhealthyThreshold : K

structure BnHealthTracker (H : Type) where
  health : H
  incapable : Finset String
  reprobeSkips : Table String Nat

def capabilityReprobeSkip : Nat := 1

def forkRecognised : String := "fork_recognised"

def produceBlockV4 : String := "produce_block_v4"

namespace BnHealthTracker

variable {H K : Type}

def new (scoring : Scoring H K) : BnHealthTracker H := ⟨scoring.new, ∅, ∅⟩

def isHealthy [LinearOrder K] (scoring : Scoring H K) (tracker : BnHealthTracker H) : Bool :=
  scoring.unhealthyThreshold < scoring.score tracker.health

def isCapable (tracker : BnHealthTracker H) (operation : String) : Bool := operation ∉ tracker.incapable

def markIncapable (operation : String) (tracker : BnHealthTracker H) : BnHealthTracker H :=
  { tracker with
    incapable := insert operation tracker.incapable
    reprobeSkips := tracker.reprobeSkips.insert operation capabilityReprobeSkip }

def markCapable (operation : String) (tracker : BnHealthTracker H) : BnHealthTracker H :=
  { tracker with
    incapable := tracker.incapable.erase operation
    reprobeSkips := tracker.reprobeSkips.erase operation }

/-- Whether this selection leaves the node out, and the tracker with one skip less. -/
def consumeReprobeSkip (tracker : BnHealthTracker H) (operation : String) : Bool × BnHealthTracker H :=
  if operation ∉ tracker.incapable then (false, tracker)
  else
    match tracker.reprobeSkips.lookup operation with
    | none | some 0 => (false, tracker)
    | some (n + 1) => (true, { tracker with reprobeSkips := tracker.reprobeSkips.insert operation n })

end BnHealthTracker

variable {H K : Type}

def capableOf (tracker : BnHealthTracker H) (opName : String) : Bool :=
  tracker.isCapable opName && (opName != produceBlockV4 || tracker.isCapable forkRecognised)

def skipCapability (tracker : BnHealthTracker H) (opName : String) : Bool × BnHealthTracker H :=
  let skipOp := tracker.consumeReprobeSkip opName
  if opName = produceBlockV4 then
    let skipFork := skipOp.2.consumeReprobeSkip forkRecognised
    (skipFork.1 || skipOp.1, skipFork.2)
  else skipOp

/-! ### The manager -/

structure Node (H : Type) where
  roles : Finset BnRole
  syncStatus : BnSyncDetail
  healthTracker : BnHealthTracker H

structure Manager (H : Type) where
  nodes : List (Node H)
  tierThresholds : TierThresholds

namespace Manager

section

variable (manager : Manager H)

def keep (p : Node H → Bool) (indices : List Nat) : List Nat :=
  indices.filter fun i => manager.nodes[i]?.any p

def indices : List Nat := List.range manager.nodes.length

def tierAtMost (tier : HealthTier) (node : Node H) : Bool :=
  node.syncStatus.tier manager.tierThresholds ≤ tier

def roleMatchingIndices (role : BnRole) : List Nat :=
  let matched := manager.keep (fun node => BnRole.matchesRole node.roles role) manager.indices
  if matched.isEmpty then manager.keep (fun node => .all ∈ node.roles) manager.indices else matched

def roleIndices (role : BnRole) : List Nat :=
  let matched := manager.roleMatchingIndices role
  if matched.isEmpty then manager.indices else matched

def fallbackTiers : HealthTier → List HealthTier
  | .synced => [.smallLag, .largeLag, .unsynced]
  | .smallLag => [.largeLag, .unsynced]
  | .largeLag => [.unsynced]
  | .unsynced => []

/-- The first tier from `minTier` on that some node reaches, and all of them if none does. -/
def tierFiltered (role : BnRole) (minTier : HealthTier) : List Nat :=
  let roleIndices := manager.roleIndices role
  let atTier := fun tier => manager.keep (manager.tierAtMost tier) roleIndices
  if (atTier minTier).isEmpty then
    (((fallbackTiers minTier).map atTier).find? fun filtered => !filtered.isEmpty).getD roleIndices
  else atTier minTier

end

def healthBefore [LinearOrder K] (scoring : Scoring H K) (manager : Manager H) (a b : Nat) : Bool :=
  let score := fun i => manager.nodes[i]?.map fun node => scoring.score node.healthTracker.health
  match score a, score b with
  | some x, some y => y < x ∨ y = x ∧ a ≤ b
  | _, _ => a ≤ b

def sortIndicesByHealth [LinearOrder K] (scoring : Scoring H K) (manager : Manager H) (indices : List Nat) : List Nat :=
  indices.insertionSort fun a b => manager.healthBefore scoring a b

def modifyTracker (i : Nat) (f : BnHealthTracker H → BnHealthTracker H) (manager : Manager H) : Manager H :=
  { manager with nodes := manager.nodes.modify i fun node => { node with healthTracker := f node.healthTracker } }

def reprobeRound (opName : String) (state : List Nat × Manager H) (i : Nat) : List Nat × Manager H :=
  match state.2.nodes[i]? with
  | none => state
  | some node =>
    if capableOf node.healthTracker opName then state
    else
      let manager := state.2.modifyTracker i fun tracker => (skipCapability tracker opName).2
      if (skipCapability node.healthTracker opName).1 then (state.1, manager) else (state.1 ++ [i], manager)

def healthyOrAll [LinearOrder K] (scoring : Scoring H K) (manager : Manager H) (indices : List Nat) : List Nat :=
  let healthy := manager.keep (fun node => node.healthTracker.isHealthy scoring) indices
  if healthy.isEmpty then indices else healthy

def syncedIndices [LinearOrder K] (scoring : Scoring H K) (manager : Manager H) (role : BnRole)
    (minTier : HealthTier) (opName : String) : List Nat × Manager H :=
  let tierFiltered := manager.tierFiltered role minTier
  let capable := manager.keep (fun node => capableOf node.healthTracker opName) tierFiltered
  if capable.isEmpty then
    (manager.sortIndicesByHealth scoring (manager.healthyOrAll scoring tierFiltered), manager)
  else
    let looped := tierFiltered.foldl (reprobeRound opName) ([], manager)
    (looped.2.sortIndicesByHealth scoring looped.1 ++
      looped.2.sortIndicesByHealth scoring (looped.2.healthyOrAll scoring capable), looped.2)

end Manager

/-! ### Recording outcomes -/

inductive TrackerOutcome where
  | success (latency : Nat)
  | error
  | incapable (unrecognisedFork : Bool)
  deriving DecidableEq

namespace BnHealthTracker

def recordSuccess (scoring : Scoring H K) (latency : Nat) (tracker : BnHealthTracker H) : BnHealthTracker H :=
  { tracker with health := scoring.recordSuccess latency tracker.health }

def recordError (scoring : Scoring H K) (tracker : BnHealthTracker H) : BnHealthTracker H :=
  { tracker with health := scoring.recordError tracker.health }

def record (scoring : Scoring H K) (opName : String) (outcome : TrackerOutcome) (tracker : BnHealthTracker H) :
    BnHealthTracker H :=
  match outcome with
  | .success latency =>
    let tracker := (tracker.recordSuccess scoring latency).markCapable opName
    if opName = produceBlockV4 then tracker.markCapable forkRecognised else tracker
  | .error => tracker.recordError scoring
  | .incapable unrecognisedFork =>
    let tracker := (tracker.recordError scoring).markIncapable opName
    if unrecognisedFork then tracker.markIncapable forkRecognised else tracker

end BnHealthTracker

namespace Manager

def recordOutcomes (scoring : Scoring H K) (opName : String) (outcomes : List (Nat × TrackerOutcome))
    (manager : Manager H) : Manager H :=
  outcomes.foldl (fun manager outcome => manager.modifyTracker outcome.1 (.record scoring opName outcome.2)) manager

def new (scoring : Scoring H K) (roles : List (Finset BnRole)) (tierThresholds : TierThresholds) : Manager H :=
  ⟨roles.map fun roles => ⟨roles, .unknown, .new scoring⟩, tierThresholds⟩

inductive Event where
  | select (role : BnRole) (minTier : HealthTier) (opName : String)
  | record (opName : String) (outcomes : List (Nat × TrackerOutcome))
  | poll (detail : Nat → BnSyncDetail)

def step [LinearOrder K] (scoring : Scoring H K) (manager : Manager H) : Event → Manager H
  | .select role minTier opName => (manager.syncedIndices scoring role minTier opName).2
  | .record opName outcomes => manager.recordOutcomes scoring opName outcomes
  | .poll detail =>
    { manager with nodes := manager.nodes.mapIdx fun i node => { node with syncStatus := detail i } }

def run [LinearOrder K] (scoring : Scoring H K) (manager : Manager H) (events : List Event) : Manager H :=
  events.foldl (step scoring) manager

end Manager

/-! ### Skips that are left -/

def watched (opName : String) : List String :=
  if opName = produceBlockV4 then [opName, forkRecognised] else [opName]

namespace BnHealthTracker

def pending (tracker : BnHealthTracker H) (operation : String) : Nat :=
  if operation ∈ tracker.incapable then (tracker.reprobeSkips.lookup operation).getD 0 else 0

section

variable (tracker : BnHealthTracker H) (operation : String)

theorem pending_markIncapable (other : String) :
    (tracker.markIncapable operation).pending other = if other = operation then 1 else tracker.pending other := by
  by_cases h : other = operation
  · subst h
    simp [pending, markIncapable, capabilityReprobeSkip]
  · simp [pending, markIncapable, h, AList.lookup_insert_ne h]

theorem pending_markCapable (other : String) :
    (tracker.markCapable operation).pending other = if other = operation then 0 else tracker.pending other := by
  by_cases h : other = operation
  · subst h
    simp [pending, markCapable]
  · simp [pending, markCapable, h, AList.lookup_erase_ne h]

theorem consumeReprobeSkip_cases :
    tracker.consumeReprobeSkip operation = (false, tracker) ∧ tracker.pending operation = 0 ∨
      ∃ n, tracker.consumeReprobeSkip operation =
          (true, { tracker with reprobeSkips := tracker.reprobeSkips.insert operation n }) ∧
        operation ∈ tracker.incapable ∧ tracker.pending operation = n + 1 := by
  by_cases hflag : operation ∈ tracker.incapable
  · rcases hlookup : tracker.reprobeSkips.lookup operation with _ | (_ | n)
    · simp [consumeReprobeSkip, pending, hflag, hlookup]
    · simp [consumeReprobeSkip, pending, hflag, hlookup]
    · simp [consumeReprobeSkip, pending, hflag, hlookup]
  · simp [consumeReprobeSkip, pending, hflag]

theorem consumeReprobeSkip_fst : (tracker.consumeReprobeSkip operation).1 = true ↔ 0 < tracker.pending operation := by
  rcases tracker.consumeReprobeSkip_cases operation with ⟨heq, hpending⟩ | ⟨n, heq, -, hpending⟩
  · simp [heq, hpending]
  · simp [heq, hpending]

theorem pending_consumeReprobeSkip (other : String) : (tracker.consumeReprobeSkip operation).2.pending other =
      if other = operation then tracker.pending other - 1 else tracker.pending other := by
  rcases tracker.consumeReprobeSkip_cases operation with ⟨heq, hpending⟩ | ⟨n, heq, hflag, hpending⟩
  · rw [heq]
    split_ifs with h
    · rw [h, hpending]
    · rfl
  · rw [heq]
    split_ifs with h
    · rw [h, hpending]
      simp [pending, hflag]
    · simp [pending, AList.lookup_insert_ne h]

end

end BnHealthTracker

open BnHealthTracker

theorem skipCapability_fst (tracker : BnHealthTracker H) (opName : String) :
    (skipCapability tracker opName).1 = true ↔ ∃ operation ∈ watched opName, 0 < tracker.pending operation := by
  by_cases hop : opName = produceBlockV4
  · have hne : forkRecognised ≠ opName := by rw [hop]; decide
    simp [skipCapability, watched, ← hop, consumeReprobeSkip_fst, pending_consumeReprobeSkip, hne, or_comm]
  · simp [skipCapability, watched, hop, consumeReprobeSkip_fst]

theorem pending_skipCapability (tracker : BnHealthTracker H) (opName other : String) :
    (skipCapability tracker opName).2.pending other =
      if other ∈ watched opName then tracker.pending other - 1 else tracker.pending other := by
  by_cases hop : opName = produceBlockV4
  · have hne : forkRecognised ≠ opName := by rw [hop]; decide
    simp only [skipCapability, watched, hop, if_true, pending_consumeReprobeSkip, mem_cons, not_mem_nil, or_false]
    rw [hop] at hne
    split_ifs <;> simp_all
  · simp [skipCapability, watched, hop, pending_consumeReprobeSkip]

namespace Manager

/-! ### Which nodes are selected from -/

variable {i : Nat} {indices : List Nat} {manager : Manager H} {p : Node H → Bool}

theorem mem_keep : i ∈ manager.keep p indices ↔ i ∈ indices ∧ manager.nodes[i]?.any p = true :=
  mem_filter

theorem mem_indices : i ∈ manager.indices ↔ i < manager.nodes.length :=
  mem_range

theorem lt_length_of_any (h : manager.nodes[i]?.any p = true) : i < manager.nodes.length := by
  by_contra hlength
  rw [getElem?_eq_none (Nat.le_of_not_lt hlength)] at h
  cases h

theorem mem_keep_indices : i ∈ manager.keep p manager.indices ↔ manager.nodes[i]?.any p = true := by
  rw [mem_keep, mem_indices]
  exact and_iff_right_of_imp lt_length_of_any

theorem mem_ite_isEmpty {l l' : List Nat} : i ∈ (if l.isEmpty then l' else l) ↔ i ∈ l ∨ (∀ j, j ∉ l) ∧ i ∈ l' := by
  cases l with
  | nil => simp
  | cons x l =>
    refine ⟨.inl, ?_⟩
    rintro (h | ⟨h, -⟩)
    · exact h
    · exact absurd mem_cons_self (h x)

variable (manager)

def Serves (role : BnRole) (i : Nat) : Prop :=
  manager.nodes[i]?.any (fun node => BnRole.matchesRole node.roles role) = true

def ServesAll (i : Nat) : Prop := manager.nodes[i]?.any (fun node => .all ∈ node.roles) = true

/-- The nodes of the role, else those for all roles, else all nodes. -/
def OfRole (role : BnRole) (i : Nat) : Prop :=
  manager.Serves role i ∨
    (∀ j, ¬manager.Serves role j) ∧ (manager.ServesAll i ∨ (∀ j, ¬manager.ServesAll j) ∧ i < manager.nodes.length)

def tierOf (i : Nat) : HealthTier :=
  (manager.nodes[i]?.map fun node => node.syncStatus.tier manager.tierThresholds).getD .unsynced

/-- Of the role; at the tier that was asked for if there is such a node, and else of the best tier there is. -/
structure Eligible (role : BnRole) (minTier : HealthTier) (i : Nat) : Prop where
  ofRole : manager.OfRole role i
  tier : manager.tierOf i ≤ minTier ∨
    ∀ j, manager.OfRole role j → ¬manager.tierOf j ≤ minTier ∧ manager.tierOf i ≤ manager.tierOf j

variable {manager} {role : BnRole}

theorem mem_roleMatchingIndices : i ∈ manager.roleMatchingIndices role ↔
      manager.Serves role i ∨ (∀ j, ¬manager.Serves role j) ∧ manager.ServesAll i := by
  rw [roleMatchingIndices, mem_ite_isEmpty, mem_keep_indices, mem_keep_indices]
  simp only [mem_keep_indices]
  rfl

theorem mem_roleIndices : i ∈ manager.roleIndices role ↔ manager.OfRole role i := by
  rw [roleIndices, mem_ite_isEmpty, mem_roleMatchingIndices, mem_indices]
  simp only [mem_roleMatchingIndices, OfRole]
  by_cases hserves : ∀ j, ¬manager.Serves role j
  · simp [hserves]
  · simp [hserves]

theorem nodup_keep (h : indices.Nodup) : (manager.keep p indices).Nodup :=
  h.filter _

theorem nodup_roleIndices (role : BnRole) : (manager.roleIndices role).Nodup := by
  have hindices : manager.indices.Nodup := nodup_range
  rw [roleIndices, roleMatchingIndices]
  split_ifs
  · exact hindices
  · exact nodup_keep hindices
  · exact nodup_keep hindices

theorem OfRole.lt_length (h : manager.OfRole role i) : i < manager.nodes.length := by
  rcases h with h | ⟨-, h | ⟨-, h⟩⟩
  · exact lt_length_of_any h
  · exact lt_length_of_any h
  · exact h

theorem exists_ofRole (h : manager.nodes ≠ []) (role : BnRole) : ∃ i, manager.OfRole role i := by
  by_cases hserves : ∃ i, manager.Serves role i
  · obtain ⟨i, hi⟩ := hserves
    exact ⟨i, .inl hi⟩
  · have hnone := not_exists.mp hserves
    by_cases hall : ∃ i, manager.ServesAll i
    · obtain ⟨i, hi⟩ := hall
      exact ⟨i, .inr ⟨hnone, .inl hi⟩⟩
    · exact ⟨0, .inr ⟨hnone, .inr ⟨not_exists.mp hall, length_pos_of_ne_nil h⟩⟩⟩

/-! ### The tier -/

theorem mem_keep_tierAtMost {tier : HealthTier} :
    i ∈ manager.keep (manager.tierAtMost tier) (manager.roleIndices role) ↔
      manager.OfRole role i ∧ manager.tierOf i ≤ tier := by
  rw [mem_keep, mem_roleIndices]
  refine and_congr_right fun hrole => ?_
  rw [tierOf, getElem?_eq_getElem hrole.lt_length, any_some, map_some, getD_some, tierAtMost, decide_eq_true_eq]

variable {minTier : HealthTier}

theorem mem_fallbackTiers {tier : HealthTier} (h : ¬tier ≤ minTier) : tier ∈ fallbackTiers minTier := by
  cases minTier <;> cases tier <;> first | exact absurd (by decide) h | decide

theorem fallbackTiers_pairwise (minTier : HealthTier) : (fallbackTiers minTier).Pairwise (· ≤ ·) := by
  cases minTier <;> decide

theorem not_isEmpty_keep_tierAtMost (h : manager.OfRole role i) :
    (manager.keep (manager.tierAtMost (manager.tierOf i)) (manager.roleIndices role)).isEmpty = false := by
  have hmem := mem_keep_tierAtMost.mpr ⟨h, le_refl (manager.tierOf i).asMetricValue⟩
  exact isEmpty_eq_false_iff.mpr (ne_nil_of_mem hmem)

section

variable (h : manager.nodes ≠ []) (role : BnRole) (minTier : HealthTier)

include h

/-- The candidates are the nodes up to a tier, which is the one asked for or the best one there is. -/
theorem tierFiltered_eq :
    ∃ tier, manager.tierFiltered role minTier = manager.keep (manager.tierAtMost tier) (manager.roleIndices role) ∧
      (∃ i, manager.OfRole role i ∧ manager.tierOf i ≤ tier) ∧
      (tier = minTier ∨ ∀ i, manager.OfRole role i → ¬manager.tierOf i ≤ minTier ∧ tier ≤ manager.tierOf i) := by
  have hexists {tier : HealthTier}
      (hne : (manager.keep (manager.tierAtMost tier) (manager.roleIndices role)).isEmpty = false) :
      ∃ i, manager.OfRole role i ∧ manager.tierOf i ≤ tier := by
    obtain ⟨i, hi⟩ := exists_mem_of_ne_nil _ (isEmpty_eq_false_iff.mp hne)
    exact ⟨i, mem_keep_tierAtMost.mp hi⟩
  rw [tierFiltered]
  cases hmin : (manager.keep (manager.tierAtMost minTier) (manager.roleIndices role)).isEmpty with
  | false => exact ⟨minTier, rfl, hexists hmin, .inl rfl⟩
  | true =>
    have hbelow (i : Nat) (hi : manager.OfRole role i) : ¬manager.tierOf i ≤ minTier := by
      intro hle
      have hmem := mem_keep_tierAtMost.mpr ⟨hi, hle⟩
      rw [isEmpty_iff.mp hmin] at hmem
      cases hmem
    cases hfound : ((fallbackTiers minTier).map fun tier =>
        manager.keep (manager.tierAtMost tier) (manager.roleIndices role)).find? fun filtered =>
          !filtered.isEmpty with
    | none =>
      obtain ⟨i, hi⟩ := exists_ofRole h role
      have hempty := find?_eq_none.mp hfound _ (mem_map_of_mem (mem_fallbackTiers (hbelow i hi)))
      rw [not_isEmpty_keep_tierAtMost hi] at hempty
      exact absurd rfl hempty
    | some filtered =>
      obtain ⟨hne, before, after, hsplit, hbefore⟩ := find?_eq_some_iff_append.mp hfound
      obtain ⟨tiers, tiers', htiers, rfl, hrest⟩ := map_eq_append_iff.mp hsplit
      obtain ⟨tier, tiers'', rfl, rfl, -⟩ := map_eq_cons_iff.mp hrest
      refine ⟨tier, rfl, hexists (by simpa using hne), .inr fun i hi => ⟨hbelow i hi, ?_⟩⟩
      have hmem := mem_fallbackTiers (hbelow i hi)
      have hordered := fallbackTiers_pairwise minTier
      rw [htiers] at hmem hordered
      rcases mem_append.mp hmem with hmem | hmem
      · -- the tiers before the one that was found have no node
        have hempty := hbefore _ (mem_map_of_mem hmem)
        rw [not_isEmpty_keep_tierAtMost hi] at hempty
        cases hempty
      · rcases mem_cons.mp hmem with heq | hmem
        · exact heq ▸ le_refl (manager.tierOf i).asMetricValue
        · exact (pairwise_cons.mp (pairwise_append.mp hordered).2.1).1 _ hmem

theorem nodup_tierFiltered : (manager.tierFiltered role minTier).Nodup := by
  obtain ⟨tier, heq, -⟩ := tierFiltered_eq h role minTier
  rw [heq]
  exact nodup_keep (nodup_roleIndices role)

theorem tierFiltered_ne_nil : manager.tierFiltered role minTier ≠ [] := by
  obtain ⟨tier, heq, ⟨i, hi⟩, -⟩ := tierFiltered_eq h role minTier
  rw [heq]
  exact ne_nil_of_mem (mem_keep_tierAtMost.mpr hi)

end

theorem mem_tierFiltered (h : manager.nodes ≠ []) :
    i ∈ manager.tierFiltered role minTier ↔ manager.Eligible role minTier i := by
  obtain ⟨tier, heq, ⟨j, hj, hjtier⟩, htier⟩ := tierFiltered_eq h role minTier
  rw [heq, mem_keep_tierAtMost]
  constructor
  · rintro ⟨hrole, hle⟩
    refine ⟨hrole, ?_⟩
    rcases htier with rfl | hbest
    · exact .inl hle
    · exact .inr fun j hj => ⟨(hbest j hj).1, Nat.le_trans hle (hbest j hj).2⟩
  · rintro ⟨hrole, hreach | hleast⟩
    · rcases htier with rfl | hbest
      · exact ⟨hrole, hreach⟩
      · exact absurd hreach (hbest i hrole).1
    · exact ⟨hrole, Nat.le_trans (hleast j hj).2 hjtier⟩

/-! ### The loop over a mixed fleet -/

def afterSelection (opName : String) (tracker : BnHealthTracker H) : BnHealthTracker H :=
  if capableOf tracker opName then tracker else (skipCapability tracker opName).2

variable (manager) in
def Capable (opName : String) (i : Nat) : Bool :=
  manager.nodes[i]?.any fun node => capableOf node.healthTracker opName

variable (manager) in
def Reprobed (opName : String) (i : Nat) : Bool :=
  manager.nodes[i]?.any fun node =>
    !capableOf node.healthTracker opName && !(skipCapability node.healthTracker opName).1

variable {opName : String}

theorem capable_eq_false_of_reprobed (h : manager.Reprobed opName i = true) : manager.Capable opName i = false := by
  unfold Reprobed at h
  unfold Capable
  cases hnode : manager.nodes[i]? with
  | none => rfl
  | some node =>
    rw [hnode, any_some, Bool.and_eq_true] at h
    simpa using h.1

theorem getElem?_modifyTracker (i j : Nat) (f : BnHealthTracker H → BnHealthTracker H) :
    (manager.modifyTracker i f).nodes[j]? =
      manager.nodes[j]?.map fun node =>
        if i = j then { node with healthTracker := f node.healthTracker } else node := by
  rw [modifyTracker, getElem?_modify]
  by_cases hij : i = j
  · simp [hij]
  · simp [hij]

theorem modifyTracker_congr {f g : BnHealthTracker H → BnHealthTracker H}
    (h : ∀ node, manager.nodes[i]? = some node → f node.healthTracker = g node.healthTracker) :
    manager.modifyTracker i f = manager.modifyTracker i g := by
  have hnodes : (manager.modifyTracker i f).nodes = (manager.modifyTracker i g).nodes := by
    refine ext_getElem? fun j => ?_
    rw [getElem?_modifyTracker, getElem?_modifyTracker]
    refine map_congr fun node hnode => ?_
    by_cases hij : i = j
    · subst hij
      rw [if_pos rfl, if_pos rfl, h node hnode]
    · rw [if_neg hij, if_neg hij]
  exact congrArg (mk · manager.tierThresholds) hnodes

theorem modifyTracker_eq_self {f : BnHealthTracker H → BnHealthTracker H}
    (h : ∀ node, manager.nodes[i]? = some node → f node.healthTracker = node.healthTracker) :
    manager.modifyTracker i f = manager := by
  have hnodes : manager.nodes.modify i id = manager.nodes := modify_id ..
  have hid : manager.modifyTracker i id = manager := congrArg (mk · manager.tierThresholds) hnodes
  exact (modifyTracker_congr h).trans hid

theorem reprobeRound_eq (opName : String) (reprobe : List Nat) (i : Nat) : reprobeRound opName (reprobe, manager) i =
      (reprobe ++ [i].filter (manager.Reprobed opName), manager.modifyTracker i (afterSelection opName)) := by
  rw [reprobeRound]
  cases hnode : manager.nodes[i]? with
  | none =>
    have hself : manager.modifyTracker i (afterSelection opName) = manager := modifyTracker_eq_self (by simp [hnode])
    simp [Reprobed, hnode, hself]
  | some node =>
    cases hcapable : capableOf node.healthTracker opName with
    | true =>
      have hself : manager.modifyTracker i (afterSelection opName) = manager :=
        modifyTracker_eq_self (by simp [hnode, afterSelection, hcapable])
      simp [Reprobed, hnode, hcapable, hself]
    | false =>
      have hsame : manager.modifyTracker i (afterSelection opName) =
          manager.modifyTracker i fun tracker => (skipCapability tracker opName).2 :=
        modifyTracker_congr (by simp [hnode, afterSelection, hcapable])
      cases hskip : (skipCapability node.healthTracker opName).1 with
      | true | false => simp [Reprobed, hnode, hcapable, hskip, hsame]

theorem foldl_reprobeRound (opName : String) (hnodup : indices.Nodup) (reprobe : List Nat) :
    (indices.foldl (reprobeRound opName) (reprobe, manager)).1 = reprobe ++ indices.filter (manager.Reprobed opName) ∧
      ∀ j, (indices.foldl (reprobeRound opName) (reprobe, manager)).2.nodes[j]? =
        manager.nodes[j]?.map fun node =>
          if j ∈ indices then { node with healthTracker := afterSelection opName node.healthTracker } else node := by
  induction indices generalizing manager reprobe with
  | nil => exact ⟨(append_nil _).symm, fun j => by simp⟩
  | cons i indices ih =>
    obtain ⟨hnotin, hnodup⟩ := nodup_cons.mp hnodup
    rw [foldl_cons, reprobeRound_eq]
    obtain ⟨hlist, hnodes⟩ := @ih (manager.modifyTracker i (afterSelection opName)) hnodup
      (reprobe ++ [i].filter (manager.Reprobed opName))
    have hothers : indices.filter ((manager.modifyTracker i (afterSelection opName)).Reprobed opName) =
        indices.filter (manager.Reprobed opName) := by
      refine filter_congr fun j hj => ?_
      have hij : i ≠ j := fun heq => hnotin (heq ▸ hj)
      simp [Reprobed, getElem?_modifyTracker, hij]
    refine ⟨?_, fun j => ?_⟩
    · rw [hlist, hothers, append_assoc, ← filter_append]
      rfl
    · rw [hnodes, getElem?_modifyTracker, Option.map_map]
      refine map_congr fun node _ => ?_
      by_cases hij : i = j
      · subst hij
        simp [hnotin]
      · have hji : j ≠ i := Ne.symm hij
        simp [hij, hji]

/-! ### What a selection returns -/

section

variable [LinearOrder K] (scoring : Scoring H K)

theorem mem_sortIndicesByHealth : i ∈ manager.sortIndicesByHealth scoring indices ↔ i ∈ indices :=
  (perm_insertionSort _ indices).mem_iff

theorem nodup_sortIndicesByHealth (h : indices.Nodup) : (manager.sortIndicesByHealth scoring indices).Nodup :=
  (perm_insertionSort _ indices).nodup_iff.mpr h

theorem sorted_healthyOrAll (manager : Manager H) (hnodup : indices.Nodup) (hne : indices ≠ []) :
    let sorted := manager.sortIndicesByHealth scoring (manager.healthyOrAll scoring indices)
    sorted ≠ [] ∧ sorted.Nodup ∧ ∀ i ∈ sorted, i ∈ indices := by
  have hsublist : (manager.healthyOrAll scoring indices).Sublist indices := by
    rw [healthyOrAll]
    split_ifs
    · exact List.Sublist.refl indices
    · exact filter_sublist
  have hne' : manager.healthyOrAll scoring indices ≠ [] := by
    rw [healthyOrAll]
    split_ifs with hempty
    · exact hne
    · exact fun hnil => hempty (isEmpty_iff.mpr hnil)
  obtain ⟨i, hi⟩ := exists_mem_of_ne_nil _ hne'
  exact ⟨ne_nil_of_mem ((mem_sortIndicesByHealth scoring).mpr hi),
    nodup_sortIndicesByHealth scoring (hsublist.nodup hnodup),
    fun i hi => hsublist.subset ((mem_sortIndicesByHealth scoring).mp hi)⟩

variable (role : BnRole) (minTier : HealthTier) (opName : String)

def Mixed (manager : Manager H) (role : BnRole) (minTier : HealthTier) (opName : String) : Prop :=
  ∃ i ∈ manager.tierFiltered role minTier, manager.Capable opName i = true

/-- A selection: first candidates that are flagged, each that has no skip left, then capable ones. -/
theorem syncedIndices_cases (h : manager.nodes ≠ []) :
    ∃ flagged capable, (manager.syncedIndices scoring role minTier opName).1 = flagged ++ capable ∧
      flagged ++ capable ≠ [] ∧ flagged.Nodup ∧ capable.Nodup ∧
      (∀ i ∈ flagged, i ∈ manager.tierFiltered role minTier ∧ manager.Capable opName i = false) ∧
      (∀ i ∈ capable, i ∈ manager.tierFiltered role minTier ∧ manager.Capable opName i = true) ∧
      (manager.Mixed role minTier opName → ∀ i,
        i ∈ flagged ↔ i ∈ manager.tierFiltered role minTier ∧ manager.Reprobed opName i = true) := by
  have hnodup := nodup_tierFiltered h role minTier
  rw [syncedIndices]
  cases hcapable : (manager.keep (fun node => capableOf node.healthTracker opName)
      (manager.tierFiltered role minTier)).isEmpty with
  | true =>
    have hnone (i : Nat) (hi : i ∈ manager.tierFiltered role minTier) : manager.Capable opName i = false := by
      by_contra hi'
      have hmem := mem_keep.mpr ⟨hi, Bool.not_eq_false _ ▸ hi'⟩
      rw [isEmpty_iff.mp hcapable] at hmem
      cases hmem
    obtain ⟨hsorted, hnodup', hmem⟩ := sorted_healthyOrAll scoring manager hnodup (tierFiltered_ne_nil h role minTier)
    refine ⟨_, [], (append_nil _).symm, by rwa [append_nil], hnodup', nodup_nil,
      fun i hi => ⟨hmem i hi, hnone i (hmem i hi)⟩, nofun, ?_⟩
    rintro ⟨i, hi, hi'⟩
    rw [hnone i hi] at hi'
    cases hi'
  | false =>
    obtain ⟨hlist, -⟩ := @foldl_reprobeRound H _ manager opName hnodup []
    rw [nil_append] at hlist
    dsimp only
    rw [if_neg Bool.false_ne_true, hlist]
    generalize (manager.tierFiltered role minTier).foldl (reprobeRound opName) ([], manager) = looped
    obtain ⟨hsorted, hnodup', hmem⟩ :=
      sorted_healthyOrAll scoring looped.2 (nodup_keep hnodup) (isEmpty_eq_false_iff.mp hcapable)
    refine ⟨_, _, rfl, append_ne_nil_of_right_ne_nil _ hsorted, nodup_sortIndicesByHealth scoring (hnodup.filter _),
      hnodup', fun i hi => ?_, fun i hi => mem_keep.mp (hmem i hi), fun _ i => ?_⟩
    · rw [mem_sortIndicesByHealth, mem_filter] at hi
      exact ⟨hi.1, capable_eq_false_of_reprobed hi.2⟩
    · rw [mem_sortIndicesByHealth, mem_filter]

theorem syncedIndices_of_nodes_eq_nil (h : manager.nodes = []) :
    (manager.syncedIndices scoring role minTier opName).1 = [] := by
  obtain ⟨nodes, tierThresholds⟩ := manager
  obtain rfl := h
  cases minTier <;> rfl

theorem nodup_syncedIndices : (manager.syncedIndices scoring role minTier opName).1.Nodup := by
  by_cases h : manager.nodes = []
  · rw [syncedIndices_of_nodes_eq_nil scoring role minTier opName h]
    exact nodup_nil
  obtain ⟨flagged, capable, heq, -, hflaggedNodup, hcapableNodup, hflagged, hcapable, -⟩ :=
    syncedIndices_cases scoring role minTier opName h
  rw [heq]
  refine nodup_append.mpr ⟨hflaggedNodup, hcapableNodup, fun i hi j hj hij => ?_⟩
  have hi := (hflagged i hi).2
  rw [hij, (hcapable j hj).2] at hi
  cases hi

end

/-! ### Runs of selections -/

variable (manager) in
def pending (i : Nat) (operation : String) : Nat :=
  (manager.nodes[i]?.map fun node => node.healthTracker.pending operation).getD 0

def Event.Flags (i : Nat) (operation : String) : Event → Prop
  | .record opName outcomes =>
    ∃ unrecognisedFork, (i, .incapable unrecognisedFork) ∈ outcomes ∧
      (operation = opName ∨ unrecognisedFork = true ∧ operation = forkRecognised)
  | _ => False

theorem pending_record (scoring : Scoring H K) (opName : String) (outcome : TrackerOutcome)
    (tracker : BnHealthTracker H) (operation : String) :
    (tracker.record scoring opName outcome).pending operation ≤ tracker.pending operation ∨
      (tracker.record scoring opName outcome).pending operation = 1 ∧
        ∃ unrecognisedFork, outcome = .incapable unrecognisedFork ∧
          (operation = opName ∨ unrecognisedFork = true ∧ operation = forkRecognised) := by
  have hsuccess (latency : Nat) : (tracker.recordSuccess scoring latency).pending operation =
    tracker.pending operation := rfl
  have herror : (tracker.recordError scoring).pending operation = tracker.pending operation := rfl
  cases outcome with
  | success latency =>
    refine .inl ?_
    simp only [record]
    split_ifs <;> simp only [pending_markCapable, hsuccess] <;> split_ifs <;> omega
  | error => exact .inl (le_of_eq herror)
  | incapable unrecognisedFork =>
    simp only [record]
    cases unrecognisedFork with
    | false =>
      by_cases hop : operation = opName <;> simp [pending_markIncapable, herror, hop]
    | true =>
      by_cases hop : operation = opName <;> by_cases hfork : operation = forkRecognised <;>
        simp [pending_markIncapable, herror, hop, hfork]

theorem pending_modifyTracker (i j : Nat) (f : BnHealthTracker H → BnHealthTracker H) (operation : String) :
    (manager.modifyTracker j f).pending i operation = manager.pending i operation ∨
      j = i ∧ ∃ tracker, manager.pending i operation = tracker.pending operation ∧
        (manager.modifyTracker j f).pending i operation = (f tracker).pending operation := by
  rw [pending, pending, getElem?_modifyTracker]
  cases manager.nodes[i]? with
  | none => exact .inl rfl
  | some node =>
    by_cases hji : j = i
    · refine .inr ⟨hji, node.healthTracker, rfl, ?_⟩
      simp [hji]
    · refine .inl ?_
      simp [hji]

theorem pending_afterSelection_le (opName : String) (tracker : BnHealthTracker H) (operation : String) :
    (afterSelection opName tracker).pending operation ≤ tracker.pending operation := by
  rw [afterSelection]
  split_ifs
  · exact le_refl _
  · rw [pending_skipCapability]
    split_ifs <;> omega

theorem pending_foldl_reprobeRound_le (opName : String) (indices reprobe : List Nat) (i : Nat) (operation : String) :
    (indices.foldl (reprobeRound opName) (reprobe, manager)).2.pending i operation ≤ manager.pending i operation := by
  induction indices generalizing manager reprobe with
  | nil => exact le_refl _
  | cons j indices ih =>
    rw [foldl_cons, reprobeRound_eq]
    refine le_trans (ih _) ?_
    rcases @pending_modifyTracker H manager i j (afterSelection opName) operation with heq | ⟨-, tracker, heq, heq'⟩
    · exact le_of_eq heq
    · rw [heq, heq']
      exact pending_afterSelection_le opName tracker operation

theorem pending_recordOutcomes (scoring : Scoring H K) (opName : String) (outcomes : List (Nat × TrackerOutcome))
    (i : Nat) (operation : String) :
    (manager.recordOutcomes scoring opName outcomes).pending i operation ≤ manager.pending i operation ∨
      (manager.recordOutcomes scoring opName outcomes).pending i operation ≤ 1 ∧
        (Event.record opName outcomes).Flags i operation := by
  induction outcomes generalizing manager with
  | nil => exact .inl (le_refl _)
  | cons outcome outcomes ih =>
    obtain ⟨j, outcome⟩ := outcome
    have hmore (h : (Event.record opName outcomes).Flags i operation) :
        (Event.record opName ((j, outcome) :: outcomes)).Flags i operation := by
      obtain ⟨unrecognisedFork, hmem, hop⟩ := h
      exact ⟨unrecognisedFork, mem_cons_of_mem _ hmem, hop⟩
    have hlast := @ih (manager.modifyTracker j (.record scoring opName outcome))
    rcases @pending_modifyTracker H manager i j (.record scoring opName outcome) operation with
      heq | ⟨rfl, tracker, heq, heq'⟩
    · rw [heq] at hlast
      exact hlast.imp_right (And.imp_right hmore)
    · rw [heq'] at hlast
      rcases pending_record scoring opName outcome tracker operation with hle | ⟨hone, unrecognisedFork, rfl, hop⟩
      · rw [heq]
        exact hlast.imp (le_trans · hle) (And.imp_right hmore)
      · rw [hone] at hlast
        refine .inr ⟨?_, unrecognisedFork, mem_cons_self, hop⟩
        rcases hlast with h | h
        · exact h
        · exact h.1

theorem pending_step [LinearOrder K] (scoring : Scoring H K) (event : Event) (i : Nat) (operation : String) :
    (manager.step scoring event).pending i operation ≤ manager.pending i operation ∨
      (manager.step scoring event).pending i operation ≤ 1 ∧ event.Flags i operation := by
  cases event with
  | select role minTier opName =>
    refine .inl ?_
    rw [step, syncedIndices]
    split_ifs
    · exact le_refl _
    · exact pending_foldl_reprobeRound_le opName _ _ i operation
  | record opName outcomes => exact pending_recordOutcomes scoring opName outcomes i operation
  | poll detail =>
    refine .inl (le_of_eq ?_)
    rw [step, pending, pending, getElem?_mapIdx, Option.map_map]
    rfl

theorem pending_run_eq_zero [LinearOrder K] {scoring : Scoring H K} {events : List Event}
    {operation : String} (hevents : ∀ event ∈ events, ¬event.Flags i operation)
    (h : manager.pending i operation = 0) : (manager.run scoring events).pending i operation = 0 := by
  induction events generalizing manager with
  | nil => exact h
  | cons event events ih =>
    refine ih (fun event' hevent' => hevents event' (mem_cons_of_mem _ hevent')) ?_
    rcases @pending_step H K manager _ scoring event i operation with hle | ⟨-, hflags⟩
    · exact le_zero.mp (h ▸ hle)
    · exact absurd hflags (hevents event mem_cons_self)

theorem pending_run_le_one [LinearOrder K] (scoring : Scoring H K) (roles : List (Finset BnRole))
    (tierThresholds : TierThresholds) (events : List Event) (i : Nat) (operation : String) :
    ((new scoring roles tierThresholds).run scoring events).pending i operation ≤ 1 := by
  have hnew : (new scoring roles tierThresholds).pending i operation ≤ 1 := by
    rw [new, pending, getElem?_map, Option.map_map]
    cases roles[i]? with
    | none | some roles => exact zero_le 1
  rw [run]
  induction events using reverseRecOn with
  | nil => exact hnew
  | append_singleton events event ih =>
    rw [foldl_append]
    rcases @pending_step H K _ _ scoring event i operation with hle | ⟨hle, -⟩
    · exact le_trans hle ih
    · exact hle

variable [LinearOrder K] (scoring : Scoring H K)

variable (manager) in
/-- A flagged candidate that the selection leaves out although there is a capable one to compare it with. -/
structure LeftOut (role : BnRole) (minTier : HealthTier) (opName : String) (i : Nat) : Prop where
  eligible : manager.Eligible role minTier i
  mixed : ∃ j, manager.Eligible role minTier j ∧ manager.Capable opName j = true
  flagged : manager.Capable opName i = false
  notMem : i ∉ (manager.syncedIndices scoring role minTier opName).1

variable {scoring}

section

variable (h : manager.LeftOut scoring role minTier opName i)

include h

theorem LeftOut.nodes_ne_nil : manager.nodes ≠ [] :=
  ne_nil_of_length_pos (zero_lt_of_lt h.eligible.ofRole.lt_length)

theorem LeftOut.mem_tierFiltered : i ∈ manager.tierFiltered role minTier :=
  (Manager.mem_tierFiltered h.nodes_ne_nil).mpr h.eligible

theorem LeftOut.mixed' : manager.Mixed role minTier opName := by
  obtain ⟨j, hj, hcapable⟩ := h.mixed
  exact ⟨j, (Manager.mem_tierFiltered h.nodes_ne_nil).mpr hj, hcapable⟩

theorem LeftOut.exists_node : ∃ node, manager.nodes[i]? = some node ∧ capableOf node.healthTracker opName = false := by
  have hnode := getElem?_eq_getElem h.eligible.ofRole.lt_length
  have hflagged := h.flagged
  rw [Capable, hnode] at hflagged
  exact ⟨_, hnode, hflagged⟩

theorem LeftOut.exists_pending : ∃ operation ∈ watched opName, 0 < manager.pending i operation := by
  obtain ⟨flagged, capable, heq, -, -, -, -, -, hflagged⟩ :=
    syncedIndices_cases scoring role minTier opName h.nodes_ne_nil
  obtain ⟨node, hnode, hcapable⟩ := h.exists_node
  have hnot : ¬manager.Reprobed opName i = true := fun hreprobed =>
    h.notMem (heq ▸ mem_append_left _ ((hflagged h.mixed' i).mpr ⟨h.mem_tierFiltered, hreprobed⟩))
  have hskip : (skipCapability node.healthTracker opName).1 = true := by
    simpa [Reprobed, hnode, hcapable] using hnot
  obtain ⟨operation, hop, hpending⟩ := (skipCapability_fst node.healthTracker opName).mp hskip
  refine ⟨operation, hop, ?_⟩
  rw [pending, hnode]
  exact hpending

end

theorem LeftOut.pending_step_eq_zero {operation : String}
    (h : manager.LeftOut scoring role minTier opName i) (hle : manager.pending i operation ≤ 1)
    (hop : operation ∈ watched opName) :
    (manager.step scoring (.select role minTier opName)).pending i operation = 0 := by
  obtain ⟨node, hnode, hcapable⟩ := h.exists_node
  obtain ⟨j, hj, hjcapable⟩ := h.mixed'
  have hne : (manager.keep (fun node => capableOf node.healthTracker opName)
      (manager.tierFiltered role minTier)).isEmpty = false :=
    isEmpty_eq_false_iff.mpr (ne_nil_of_mem (mem_keep.mpr ⟨hj, hjcapable⟩))
  have hnodes := (@foldl_reprobeRound H _ manager opName (nodup_tierFiltered h.nodes_ne_nil role minTier) []).2 i
  rw [pending, hnode] at hle
  rw [step, syncedIndices, if_neg (by rw [hne]; decide), pending, hnodes, hnode, map_some, map_some,
    getD_some, if_pos h.mem_tierFiltered, afterSelection, if_neg (by rw [hcapable]; decide),
    pending_skipCapability, if_pos hop]
  exact Nat.sub_eq_zero_of_le hle

end Manager

open Manager in
/-- **Selections are never empty and starve no node.** A selection has no repeats and comes from the eligible nodes,
flagged ones before capable ones; and of two selections for one operation, a node that is not flagged again between
them is left out of at most one. -/
theorem synced_indices_fair [LinearOrder K] (scoring : Scoring H K) :
    (∀ (manager : Manager H) role minTier opName, manager.nodes ≠ [] →
      let selected := (manager.syncedIndices scoring role minTier opName).1
      selected ≠ [] ∧ selected.Nodup ∧ (∀ i ∈ selected, manager.Eligible role minTier i) ∧
        selected.Pairwise fun i j => manager.Capable opName i = true → manager.Capable opName j = true) ∧
    ∀ roles tierThresholds before role minTier opName between role' minTier' i,
      let manager := (Manager.new scoring roles tierThresholds).run scoring before
      let later := (manager.step scoring (.select role minTier opName)).run scoring between
      (∀ event ∈ between, ∀ operation ∈ watched opName, ¬event.Flags i operation) →
      manager.LeftOut scoring role minTier opName i → ¬later.LeftOut scoring role' minTier' opName i := by
  constructor
  · intro manager role minTier opName hne
    obtain ⟨flagged, capable, heq, hnil, -, -, hflagged, hcapable, -⟩ :=
      syncedIndices_cases scoring role minTier opName hne
    rw [heq]
    refine ⟨hnil, ?_, fun i hi => ?_, ?_⟩
    · exact heq ▸ nodup_syncedIndices scoring role minTier opName
    · rcases mem_append.mp hi with hi | hi
      · exact (mem_tierFiltered hne).mp (hflagged i hi).1
      · exact (mem_tierFiltered hne).mp (hcapable i hi).1
    · refine pairwise_append.mpr ⟨?_, ?_, fun i _ j hj _ => (hcapable j hj).2⟩
      · refine pairwise_of_forall_mem_list fun i hi j _ hcapable' => ?_
        rw [(hflagged i hi).2] at hcapable'
        cases hcapable'
      · exact pairwise_of_forall_mem_list fun i _ j hj _ => (hcapable j hj).2
  · intro roles tierThresholds before role minTier opName between role' minTier' i manager later hbetween hleft hleft'
    obtain ⟨operation, hop, hpending⟩ := hleft'.exists_pending
    have hzero := hleft.pending_step_eq_zero (pending_run_le_one scoring roles tierThresholds before i operation) hop
    rw [pending_run_eq_zero (fun event hevent => hbetween event hevent operation hop) hzero] at hpending
    exact lt_irrefl 0 hpending

def sampleScoring : Scoring Nat Nat where
  new := 100
  recordSuccess _ health := health
  recordError health := health - 1
  score := id
  unhealthyThreshold := 20

/-- Two nodes, of which the first has no endpoint for the operation. -/
def sampleManager : Manager Nat :=
  (Manager.new sampleScoring [{.all}, {.all}] ⟨8, 8, 48⟩).run sampleScoring
    [.record produceBlockV4 [(0, .incapable false)]]

theorem synced_indices_fair_two : sampleManager.LeftOut sampleScoring .proposal .synced produceBlockV4 0 ∧
      ¬(sampleManager.step sampleScoring (.select .proposal .synced produceBlockV4)).LeftOut sampleScoring .proposal
        .synced produceBlockV4 0 := by
  have hne : sampleManager.nodes ≠ [] := by decide +kernel
  have hleft : sampleManager.LeftOut sampleScoring .proposal .synced produceBlockV4 0 :=
    ⟨(Manager.mem_tierFiltered hne).mp (by decide +kernel),
      ⟨1, (Manager.mem_tierFiltered hne).mp (by decide +kernel), by decide +kernel⟩, by decide +kernel,
      by decide +kernel⟩
  exact ⟨hleft, (synced_indices_fair sampleScoring).2 [{.all}, {.all}] ⟨8, 8, 48⟩
    [.record produceBlockV4 [(0, .incapable false)]] .proposal .synced produceBlockV4 [] .proposal .synced 0 nofun
    hleft⟩

end Rvc.BnManager
