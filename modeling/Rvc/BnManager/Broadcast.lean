import Mathlib.Data.Finset.Insert
import Rvc.Lib.Table

/-!
# Broadcasting to every beacon node

`bn-manager`: a call goes to every node of a role and the outcomes come back in the order of the nodes.
`mergeLivenessBroadcast` folds the liveness answers of all nodes into one, in which an index is live if any
node said so; a failed node contributes nothing.
-/

namespace Rvc.BnManager

open Rvc.Lib List

/-- `BeaconError`; a timeout carries its duration as it is printed. -/
inductive BeaconError where
  | httpError (message : String)
  | parseError (message : String)
  | apiError (status : Nat) (message : String)
  | timeout
  | operationTimeout (operation duration : String)
  | invalidUrl (url : String)
  | bodyTooLarge (expected gotSoFar : Nat)
  | noEligibleBn (operation role : String)
  deriving DecidableEq

def BeaconError.toString : BeaconError → String
  | .httpError message => "HTTP request failed: " ++ message
  | .parseError message => "Failed to parse response: " ++ message
  | .apiError status message => "Beacon node returned error: " ++ s!"{status}" ++ " - " ++ message
  | .timeout => "Request timeout"
  | .operationTimeout operation duration => operation ++ " timed out after " ++ duration
  | .invalidUrl url => "Invalid endpoint URL: " ++ url
  | .bodyTooLarge expected gotSoFar => "response body too large: expected ≤ " ++ s!"{expected}" ++
      " bytes, received " ++ s!"{gotSoFar}" ++ " bytes"
  | .noEligibleBn operation role => "no beacon nodes eligible for " ++ operation ++ " (role " ++ role ++ ")"

inductive BnRole where
  | attestation
  | proposal
  | syncCommittee
  | aggregation
  | submission
  | all
  deriving DecidableEq

def BnRole.matchesRole (roles : Finset BnRole) (required : BnRole) : Bool :=
  .all ∈ roles || required ∈ roles

structure Client (τ : Type) where
  endpoint : String
  roles : Finset BnRole
  answer : Except BeaconError τ

structure BnOutcome (τ : Type) where
  endpoint : String
  result : Except BeaconError τ

structure BroadcastResult (τ : Type) where
  outcomes : List (BnOutcome τ)

variable {τ : Type}

def roleMatching (clients : List (Client τ)) (role : BnRole) : List (Client τ) :=
  let matched := clients.filter fun client => BnRole.matchesRole client.roles role
  if matched.isEmpty then
    clients.filter fun client => .all ∈ client.roles
  else
    matched

def broadcastInner (clients : List (Client τ)) (role : BnRole) : BroadcastResult τ :=
  ⟨(roleMatching clients role).map fun client => ⟨client.endpoint, client.answer⟩⟩

namespace BroadcastResult

section

variable (broadcast : BroadcastResult τ)

def anySuccess : Bool :=
  broadcast.outcomes.any fun outcome => outcome.result.isOk

def firstOk (lastErr : Option BeaconError) : List (BnOutcome τ) → Except BeaconError (String × τ)
  | [] => .error (lastErr.getD (.noEligibleBn "broadcast" "none"))
  | outcome :: rest =>
      match outcome.result with
      | .ok value => .ok (outcome.endpoint, value)
      | .error e => firstOk (some e) rest

def intoResultAttributed : Except BeaconError (String × τ) :=
  firstOk none broadcast.outcomes

def intoResult : Except BeaconError τ :=
  broadcast.intoResultAttributed.map Prod.snd

def answers : List τ :=
  broadcast.outcomes.filterMap fun outcome => outcome.result.toOption

end

theorem firstOk_error {outcomes : List (BnOutcome τ)} (h : ∀ o ∈ outcomes, o.result.isOk = false)
    (lastErr : Option BeaconError) : ∃ e, firstOk lastErr outcomes = .error e := by
  induction outcomes generalizing lastErr with
  | nil => exact ⟨_, rfl⟩
  | cons outcome rest ih =>
    cases hres : outcome.result with
    | ok value =>
      have hfail := h outcome mem_cons_self
      rw [hres] at hfail
      cases hfail
    | error e =>
      rw [firstOk, hres]
      exact ih (fun o ho => h o (mem_cons_of_mem _ ho)) (some e)

theorem intoResult_error {broadcast : BroadcastResult τ} (h : broadcast.anySuccess = false) :
    ∃ e, broadcast.intoResult = .error e := by
  have hfail : ∀ o ∈ broadcast.outcomes, o.result.isOk = false := by
    intro o ho
    simpa using any_eq_false.mp h o ho
  obtain ⟨e, he⟩ := firstOk_error hfail none
  exact ⟨e, by rw [intoResult, intoResultAttributed, he]; rfl⟩

theorem mem_answers {clients : List (Client τ)} {role : BnRole} {value : τ} :
    value ∈ (broadcastInner clients role).answers ↔
      ∃ client ∈ roleMatching clients role, client.answer = .ok value := by
  unfold answers broadcastInner
  simp only [filterMap_map, mem_filterMap, Function.comp_apply]
  refine exists_congr fun client => and_congr_right fun _ => ?_
  cases client.answer <;> simp [Except.toOption]

end BroadcastResult

/-! ### Merging liveness answers -/

structure ValidatorLiveness where
  index : String
  isLive : Bool
  deriving DecidableEq

def mergeEntry (acc : Table String Bool × List String) (entry : ValidatorLiveness) : Table String Bool × List String :=
  match acc.1.lookup entry.index with
  | some live => (acc.1.insert entry.index (live || entry.isLive), acc.2)
  | none => (acc.1.insert entry.index entry.isLive, acc.2 ++ [entry.index])

/-- The result in the order of first mention, each index taken out of the map once. -/
def takeInOrder (liveByIndex : Table String Bool) : List String → List ValidatorLiveness
  | [] => []
  | index :: rest =>
      match liveByIndex.lookup index with
      | some isLive => ⟨index, isLive⟩ :: takeInOrder (liveByIndex.erase index) rest
      | none => takeInOrder liveByIndex rest

def mergeLivenessBroadcast (broadcast : BroadcastResult (List ValidatorLiveness)) :
    Except BeaconError (List ValidatorLiveness) :=
  if !broadcast.anySuccess then
    broadcast.intoResult
  else
    let merged := broadcast.answers.foldl (fun acc data => data.foldl mergeEntry acc) (∅, [])
    .ok (takeInOrder merged.1 merged.2)

def postValidatorLivenessMerged (clients : List (Client (List ValidatorLiveness))) :
    Except BeaconError (List ValidatorLiveness) :=
  let broadcast := broadcastInner clients .all
  if broadcast.outcomes.isEmpty then
    .error (.noEligibleBn "post_validator_liveness_merged" "all")
  else
    mergeLivenessBroadcast broadcast

structure MergedFrom (entries : List ValidatorLiveness) (acc : Table String Bool × List String) : Prop where
  nodup : acc.2.Nodup
  mem_order : ∀ index, index ∈ acc.2 ↔ ∃ entry ∈ entries, entry.index = index
  lookup : ∀ index, acc.1.lookup index =
    if index ∈ acc.2 then some (entries.any fun entry => entry.index = index && entry.isLive) else none

section

variable {entries : List ValidatorLiveness} {acc : Table String Bool × List String} (h : MergedFrom entries acc)

include h

theorem MergedFrom.step (entry : ValidatorLiveness) : MergedFrom (entries ++ [entry]) (mergeEntry acc entry) := by
  have hlookup := h.lookup entry.index
  unfold mergeEntry
  by_cases hmem : entry.index ∈ acc.2
  · rw [if_pos hmem] at hlookup
    rw [hlookup]
    refine ⟨h.nodup, fun index => ?_, fun index => ?_⟩
    · rw [h.mem_order index]
      constructor
      · rintro ⟨e, he, rfl⟩
        exact ⟨e, mem_append_left _ he, rfl⟩
      · rintro ⟨e, he, rfl⟩
        rcases mem_append.mp he with he | he
        · exact ⟨e, he, rfl⟩
        · obtain rfl := mem_singleton.mp he
          exact (h.mem_order _).mp hmem
    · by_cases hindex : index = entry.index
      · subst hindex
        simp [hmem]
      · rw [AList.lookup_insert_ne hindex, h.lookup]
        simp [Ne.symm hindex]
  · rw [if_neg hmem] at hlookup
    rw [hlookup]
    refine ⟨?_, fun index => ?_, fun index => ?_⟩
    · exact nodup_append.mpr ⟨h.nodup, nodup_singleton _, by
        rintro a ha b hb rfl
        exact hmem (mem_singleton.mp hb ▸ ha)⟩
    · simp only [mem_append, mem_singleton, h.mem_order index]
      constructor
      · rintro (⟨e, he, rfl⟩ | rfl)
        · exact ⟨e, .inl he, rfl⟩
        · exact ⟨entry, .inr rfl, rfl⟩
      · rintro ⟨e, he | rfl, rfl⟩
        · exact .inl ⟨e, he, rfl⟩
        · exact .inr rfl
    · by_cases hindex : index = entry.index
      · subst hindex
        have hnone : (entries.any fun e => e.index = entry.index && e.isLive) = false := by
          rw [any_eq_false]
          intro e he
          have hne : e.index ≠ entry.index := fun heq => hmem ((h.mem_order _).mpr ⟨e, he, heq⟩)
          simp [hne]
        simp [hnone]
      · rw [AList.lookup_insert_ne hindex, h.lookup]
        simp [hindex, Ne.symm hindex]

theorem MergedFrom.foldl (data : List ValidatorLiveness) :
    MergedFrom (entries ++ data) (data.foldl mergeEntry acc) := by
  induction data generalizing entries acc with
  | nil => simpa using h
  | cons entry rest ih =>
    rw [foldl_cons, append_cons]
    exact ih (h.step entry)

end

theorem mergedFrom_answers (answers : List (List ValidatorLiveness)) :
    MergedFrom answers.flatten (answers.foldl (fun acc data => data.foldl mergeEntry acc) (∅, [])) := by
  rw [← foldl_flatten]
  have hempty : MergedFrom [] (∅, []) := ⟨nodup_nil, by simp, by simp⟩
  exact hempty.foldl answers.flatten

theorem mem_takeInOrder {liveByIndex : Table String Bool} {order : List String} (hnodup : order.Nodup)
    {entry : ValidatorLiveness} : entry ∈ takeInOrder liveByIndex order ↔
      entry.index ∈ order ∧ liveByIndex.lookup entry.index = some entry.isLive := by
  induction order generalizing liveByIndex with
  | nil => simp [takeInOrder]
  | cons index rest ih =>
    obtain ⟨hhead, hrest⟩ := nodup_cons.mp hnodup
    unfold takeInOrder
    cases hlookup : liveByIndex.lookup index with
    | none =>
      simp only [ih hrest, mem_cons]
      constructor
      · rintro ⟨hmem, hlive⟩
        exact ⟨.inr hmem, hlive⟩
      · rintro ⟨heq | hmem, hlive⟩
        · rw [heq, hlookup] at hlive
          cases hlive
        · exact ⟨hmem, hlive⟩
    | some isLive =>
      simp only [mem_cons, ih hrest]
      constructor
      · rintro (rfl | ⟨hmem, hlive⟩)
        · exact ⟨.inl rfl, hlookup⟩
        · have hne : entry.index ≠ index := fun heq => hhead (heq ▸ hmem)
          rw [AList.lookup_erase_ne hne] at hlive
          exact ⟨.inr hmem, hlive⟩
      · rintro ⟨heq | hmem, hlive⟩
        · left
          rw [heq, hlookup] at hlive
          cases hlive
          rw [← heq]
        · have hne : entry.index ≠ index := fun heq => hhead (heq ▸ hmem)
          exact .inr ⟨hmem, by rwa [AList.lookup_erase_ne hne]⟩

/-- A merged answer has one entry per index that some node mentioned, live if some node said so. -/
theorem mem_mergeLivenessBroadcast {broadcast : BroadcastResult (List ValidatorLiveness)}
    (hany : broadcast.anySuccess = true) : ∃ data, mergeLivenessBroadcast broadcast = .ok data ∧ ∀ entry, entry ∈ data ↔
      (∃ answer ∈ broadcast.answers, ∃ other ∈ answer, other.index = entry.index) ∧ (entry.isLive = true ↔
        ∃ answer ∈ broadcast.answers, ∃ other ∈ answer, other.index = entry.index ∧ other.isLive = true) := by
  have hmerged := mergedFrom_answers broadcast.answers
  refine ⟨_, by rw [mergeLivenessBroadcast, hany]; rfl, fun entry => ?_⟩
  rw [mem_takeInOrder hmerged.nodup, hmerged.lookup]
  have hflat : ∀ P : ValidatorLiveness → Prop, (∃ other ∈ broadcast.answers.flatten, P other) ↔
      ∃ answer ∈ broadcast.answers, ∃ other ∈ answer, P other := by
    intro P
    constructor
    · rintro ⟨other, hother, hP⟩
      obtain ⟨answer, hanswer, hother⟩ := mem_flatten.mp hother
      exact ⟨answer, hanswer, other, hother, hP⟩
    · rintro ⟨answer, hanswer, other, hother, hP⟩
      exact ⟨other, mem_flatten.mpr ⟨answer, hanswer, hother⟩, hP⟩
  rw [← hflat fun other => other.index = entry.index,
    ← hflat fun other => other.index = entry.index ∧ other.isLive = true, ← hmerged.mem_order]
  refine and_congr_right fun hmem => ?_
  rw [if_pos hmem, Option.some.injEq]
  have hiff : (broadcast.answers.flatten.any fun other => other.index = entry.index && other.isLive) =
      true ↔ ∃ other ∈ broadcast.answers.flatten, other.index = entry.index ∧ other.isLive = true := by
    rw [any_eq_true]
    simp only [Bool.and_eq_true, decide_eq_true_eq]
  rw [← hiff]
  cases entry.isLive <;> simp

end Rvc.BnManager
