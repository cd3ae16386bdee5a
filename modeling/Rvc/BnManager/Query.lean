import Mathlib.Algebra.Ring.Nat
import Rvc.BnManager.Selection

/-!
# Asking one beacon node after another

`query_first_prefer_some` and `query_failover` of `bn-manager`: the selected nodes are asked in turn, and what ends the
round differs. The first goes on after every error and every empty answer; the second, which produces blocks, only
after errors that say that no block was made.

Each attempt is bounded by a share of what is left of the deadline. Instants are nanoseconds, and those at which the
loops look at the clock are given with the attempts; whether an answer comes within its bound is given too.
-/

namespace Rvc.BnManager

open List Nat

/-! ### Errors -/

def BnRole.toString : BnRole → String
  | .attestation => "attestation"
  | .proposal => "proposal"
  | .syncCommittee => "sync-committee"
  | .aggregation => "aggregation"
  | .submission => "submission"
  | .all => "all"

/-- The places after the point, without the zeros at the end. -/
def fractionText (width fraction : Nat) : String :=
  let digits := (s!"{fraction}").toList
  let padded := List.replicate (width - digits.length) '0' ++ digits
  String.ofList (padded.reverse.dropWhile (· = '0')).reverse

def durationText (nanos : Nat) : String :=
  let inUnit := fun (width : Nat) (suffix : String) =>
    let unit := 10 ^ width
    let fraction := if nanos % unit = 0 then "" else "." ++ fractionText width (nanos % unit)
    s!"{nanos / unit}" ++ fraction ++ suffix
  if 10 ^ 9 ≤ nanos then inUnit 9 "s"
  else if 10 ^ 6 ≤ nanos then inUnit 6 "ms"
  else if 10 ^ 3 ≤ nanos then inUnit 3 "µs"
  else inUnit 0 "ns"

def isProductionFailoverError : BeaconError → Bool
  | .timeout | .operationTimeout _ _ | .httpError _ => true
  | .apiError status _ => status = 404 ∨ status = 405 ∨ 500 ≤ status ∧ status < 600
  | _ => false

def isUnrecognisedFork : BeaconError → Bool
  | .parseError message =>
    "invalid Eth-Consensus-Version".toList <:+: message.toList ∨
      "unparseable Eth-Consensus-Version".toList <:+: message.toList
  | _ => false

def isV4CapabilityGap (opName : String) : BeaconError → Bool
  | .apiError status _ => opName = produceBlockV4 ∧ (status = 404 ∨ status = 405 ∨ status = 501)
  | _ => false

def errorOutcome (opName : String) (err : BeaconError) : TrackerOutcome :=
  if isUnrecognisedFork err then .incapable true
  else if isV4CapabilityGap opName err then .incapable false
  else .error

def TrackerOutcome.isIncapable : TrackerOutcome → Bool
  | .incapable _ => true
  | _ => false

def BeaconError.isOperationTimeout : BeaconError → Bool
  | .operationTimeout _ _ => true
  | _ => false

def noEligibleBn (opName : String) (role : BnRole) : BeaconError := .noEligibleBn opName role.toString

/-! ### Bounds of an attempt -/

def splitAttemptTimeout (remaining remainingBns : Nat) : Nat :=
  if remainingBns ≤ 1 then remaining
  else if remaining / remainingBns = 0 then remaining
  else remaining / remainingBns

def attemptTimeoutFloor : Nat := 250 * 10 ^ 6

def attemptTimeout (remaining bnsLeft : Nat) : Option Nat :=
  if remaining = 0 then none
  else some (min remaining (max (splitAttemptTimeout remaining bnsLeft) attemptTimeoutFloor))

def attemptLimit (opName : String) (deadline : Option Nat) (now bnsLeft : Nat) : Except BeaconError (Option Nat) :=
  match deadline with
  | none => .ok none
  | some deadline =>
    match attemptTimeout (deadline - now) bnsLeft with
    | some bound => .ok (some bound)
    | none => .error (.operationTimeout opName (durationText 0))

/-- The attempt on one client: the instants before and after it, what the client answers, and whether that is later
than the bound of the attempt. -/
structure Attempt (τ : Type) where
  started : Nat
  answer : Except BeaconError τ
  late : Bool
  ended : Nat

variable {τ : Type}

def Attempt.await (attempt : Attempt τ) (bound : Option Nat) (expiry : Nat → BeaconError) : Except BeaconError τ :=
  match bound with
  | none => attempt.answer
  | some bound => if attempt.late then .error (expiry bound) else attempt.answer

def awaitAttempt (opName : String) (bound : Option Nat) (attempt : Attempt τ) : Except BeaconError τ :=
  attempt.await bound fun bound => .operationTimeout opName (durationText bound)

/-- A round of attempts: its result, the attempts that were made, with their results, and the manager after it. -/
structure Round (H α τ : Type) where
  result : Except BeaconError α
  attempts : List (Nat × Except BeaconError τ)
  manager : Manager H

variable {H K α : Type}

def Round.after (round : Round H α τ) (i : Nat) (result : Except BeaconError τ) : Round H α τ :=
  { round with attempts := (i, result) :: round.attempts }

/-! ### `query_first_prefer_some` -/

section

variable [LinearOrder K] (scoring : Scoring H K) (opName : String) (role : BnRole)

def preferSomeResult (lastErr : Option BeaconError) (sawNone : Bool) : Except BeaconError (Option τ) :=
  match lastErr with
  | some (.operationTimeout operation duration) => .error (.operationTimeout operation duration)
  | other => if sawNone then .ok none else .error (other.getD (noEligibleBn opName role))

def preferSomeLoop (deadline : Option Nat) (attempt : Nat → Attempt (Option τ)) (lastErr : Option BeaconError)
    (sawNone : Bool) (manager : Manager H) : List Nat → Round H (Option τ) (Option τ)
  | [] => ⟨preferSomeResult opName role lastErr sawNone, [], manager⟩
  | i :: rest =>
    match attemptLimit opName deadline (attempt i).started (rest.length + 1) with
    | .error e => ⟨.error e, [], manager⟩
    | .ok bound =>
      match awaitAttempt opName bound (attempt i) with
      | .ok (some value) =>
        let elapsed := (attempt i).ended - (attempt i).started
        ⟨.ok (some value), [(i, .ok (some value))], manager.recordOutcomes scoring opName [(i, .success elapsed)]⟩
      | .ok none => (preferSomeLoop deadline attempt lastErr true manager rest).after i (.ok none)
      | .error e =>
        let manager := manager.recordOutcomes scoring opName [(i, errorOutcome opName e)]
        if e.isOperationTimeout then
          if rest.isEmpty then ⟨.error e, [(i, .error e)], manager⟩
          else
            match attemptLimit opName deadline (attempt i).ended rest.length with
            | .error exhausted => ⟨.error exhausted, [(i, .error e)], manager⟩
            | .ok _ => (preferSomeLoop deadline attempt (some e) sawNone manager rest).after i (.error e)
        else (preferSomeLoop deadline attempt (some e) sawNone manager rest).after i (.error e)

def queryFirstPreferSome (manager : Manager H) (minTier : HealthTier) (deadline : Option Nat)
    (attempt : Nat → Attempt (Option τ)) : Round H (Option τ) (Option τ) :=
  let selected := manager.syncedIndices scoring role minTier opName
  if selected.1.isEmpty then ⟨.error (noEligibleBn opName role), [], selected.2⟩
  else preferSomeLoop scoring opName role deadline attempt none false selected.2 selected.1

end

section

variable {scoring : Scoring H K} {opName : String} {role : BnRole}

def lastFailure (last : Option BeaconError) (attempts : List (Nat × Except BeaconError τ)) : Option BeaconError :=
  attempts.foldl (fun last attempt => match attempt.2 with | .error e => some e | .ok _ => last) last

theorem preferSomeResult_eq_ok {lastErr : Option BeaconError} {sawNone : Bool} {value : Option τ}
    (h : preferSomeResult opName role lastErr sawNone = .ok value) :
    value = none ∧ lastErr.any BeaconError.isOperationTimeout = false := by
  unfold preferSomeResult at h
  split at h
  · cases h
  · next hlast =>
    split_ifs at h
    cases h
    refine ⟨rfl, ?_⟩
    rcases lastErr with _ | e
    · rfl
    · cases e <;> first | rfl | exact absurd rfl (hlast _ _)

theorem preferSomeResult_of_saw {lastErr : Option BeaconError}
    (h : lastErr.any BeaconError.isOperationTimeout = false) :
    (preferSomeResult opName role lastErr true : Except BeaconError (Option τ)) = .ok none := by
  rcases lastErr with _ | e
  · rfl
  · cases e <;> first | rfl | cases h

/-- The attempts of a round that finds nothing: each selected node was asked and none had a value, the last failure is
no timeout, and some node had no data. -/
structure FindsNothing (lastErr : Option BeaconError) (sawNone : Bool) (indices : List Nat)
    (attempts : List (Nat × Except BeaconError (Option τ))) : Prop where
  asked : attempts.length = indices.length
  noValue : ∀ attempt ∈ attempts, ∀ value, attempt.2 ≠ .ok (some value)
  noTimeout : (lastFailure lastErr attempts).any BeaconError.isOperationTimeout = false
  noData : sawNone = true ∨ ∃ attempt ∈ attempts, attempt.2 = .ok none

section

variable {lastErr : Option BeaconError} {sawNone : Bool} {i : Nat} {indices : List Nat}
  {attempts : List (Nat × Except BeaconError (Option τ))}

theorem FindsNothing.cons_none : FindsNothing lastErr sawNone (i :: indices) ((i, .ok none) :: attempts) ↔
      FindsNothing lastErr true indices attempts := by
  constructor
  · intro h
    exact ⟨succ.inj h.asked, fun attempt hattempt => h.noValue attempt (.tail _ hattempt), h.noTimeout, .inl rfl⟩
  · intro h
    refine ⟨congrArg succ h.asked, fun attempt hattempt => ?_, h.noTimeout, .inr ⟨_, .head _, rfl⟩⟩
    rcases mem_cons.mp hattempt with rfl | hattempt
    · exact fun _ heq => nomatch heq
    · exact h.noValue attempt hattempt

theorem FindsNothing.cons_error {e : BeaconError} :
    FindsNothing lastErr sawNone (i :: indices) ((i, .error e) :: attempts) ↔
      FindsNothing (some e) sawNone indices attempts := by
  constructor
  · intro h
    refine ⟨succ.inj h.asked, fun attempt hattempt => h.noValue attempt (.tail _ hattempt), h.noTimeout, ?_⟩
    rcases h.noData with hsaw | ⟨attempt, hattempt, hnone⟩
    · exact .inl hsaw
    · rcases mem_cons.mp hattempt with rfl | hattempt
      · cases hnone
      · exact .inr ⟨attempt, hattempt, hnone⟩
  · intro h
    refine ⟨congrArg succ h.asked, fun attempt hattempt => ?_, h.noTimeout, ?_⟩
    · rcases mem_cons.mp hattempt with rfl | hattempt
      · exact fun _ heq => nomatch heq
      · exact h.noValue attempt hattempt
    · exact h.noData.imp_right fun ⟨attempt, hattempt, hnone⟩ => ⟨attempt, .tail _ hattempt, hnone⟩

end

theorem preferSomeLoop_eq_ok_none (deadline : Option Nat) (attempt : Nat → Attempt (Option τ)) (indices : List Nat) :
    ∀ (lastErr : Option BeaconError) (sawNone : Bool) (manager : Manager H),
      let round := preferSomeLoop scoring opName role deadline attempt lastErr sawNone manager indices
      round.result = .ok none ↔ FindsNothing lastErr sawNone indices round.attempts := by
  induction indices with
  | nil =>
    intro lastErr sawNone manager
    constructor
    · intro hok
      cases sawNone with
      | false =>
        unfold preferSomeLoop preferSomeResult at hok
        split at hok <;> cases hok
      | true => exact ⟨rfl, nofun, (preferSomeResult_eq_ok hok).2, .inl rfl⟩
    · intro h
      obtain rfl : sawNone = true := h.noData.resolve_right nofun
      exact preferSomeResult_of_saw h.noTimeout
  | cons i rest ih =>
    intro lastErr sawNone manager
    unfold preferSomeLoop
    split
    · exact ⟨nofun, fun h => nomatch h.asked⟩
    split
    · next value _ => exact ⟨nofun, fun h => absurd rfl (h.noValue _ (.head _) value)⟩
    · exact (ih lastErr true manager).trans FindsNothing.cons_none.symm
    · next e _ =>
      split_ifs with htimeout hrest
      · refine ⟨nofun, fun h => ?_⟩
        have hno : e.isOperationTimeout = false := h.noTimeout
        rw [htimeout] at hno
        cases hno
      · split
        · refine ⟨nofun, fun h => ?_⟩
          have hlength : 0 = rest.length := succ.inj h.asked
          exact absurd (isEmpty_iff.mpr (length_eq_zero_iff.mp hlength.symm)) hrest
        · exact (ih (some e) sawNone _).trans FindsNothing.cons_error.symm
      · exact (ih (some e) sawNone _).trans FindsNothing.cons_error.symm

theorem mem_of_preferSomeLoop_eq_ok_some (deadline : Option Nat) (attempt : Nat → Attempt (Option τ))
    (indices : List Nat) : ∀ (lastErr : Option BeaconError) (sawNone : Bool) (manager : Manager H) (value : τ),
      let round := preferSomeLoop scoring opName role deadline attempt lastErr sawNone manager indices
      round.result = .ok (some value) → ∃ i, (i, .ok (some value)) ∈ round.attempts := by
  induction indices with
  | nil =>
    intro lastErr sawNone manager value round hok
    cases (preferSomeResult_eq_ok hok).1
  | cons i rest ih =>
    intro lastErr sawNone manager value
    unfold preferSomeLoop
    split
    · exact nofun
    split
    · intro round hok
      cases hok
      exact ⟨i, .head _⟩
    · exact fun hok => (ih lastErr true manager value hok).imp fun _ hmem => .tail _ hmem
    · next e _ =>
      split_ifs
      · exact nofun
      · split
        · exact nofun
        · exact fun hok => (ih (some e) sawNone _ value hok).imp fun _ hmem => .tail _ hmem
      · exact fun hok => (ih (some e) sawNone _ value hok).imp fun _ hmem => .tail _ hmem

/-- A hang without a value is reported as an error exactly if no node had no data, or the last failure is a hang, or the
deadline ended the round before each node was asked. -/
theorem query_first_prefer_some_hang [LinearOrder K] (scoring : Scoring H K) (opName : String) (role : BnRole)
    (manager : Manager H) (minTier : HealthTier) (deadline : Option Nat) (attempt : Nat → Attempt (Option τ)) :
    let selected := (manager.syncedIndices scoring role minTier opName).1
    let round := queryFirstPreferSome scoring opName role manager minTier deadline attempt
    (∃ i e, (i, .error e) ∈ round.attempts ∧ e.isOperationTimeout = true) →
    (∀ attempt ∈ round.attempts, ∀ value, attempt.2 ≠ .ok (some value)) →
    ((∃ reported, round.result = .error reported) ↔
      (∀ attempt ∈ round.attempts, attempt.2 ≠ .ok none) ∨
        (lastFailure none round.attempts).any BeaconError.isOperationTimeout = true ∨
        round.attempts.length ≠ selected.length) := by
  intro selected round htimeout hnoValue
  have hround : round = preferSomeLoop scoring opName role deadline attempt none false
      (manager.syncedIndices scoring role minTier opName).2 selected := by
    refine if_neg fun hempty => ?_
    obtain ⟨i, e, hmem, -⟩ := htimeout
    have hattempts : round.attempts = [] := by
      simp only [round, queryFirstPreferSome, if_pos hempty]
    rw [hattempts] at hmem
    cases hmem
  have hnothing : round.result = .ok none ↔ FindsNothing none false selected round.attempts := by
    rw [hround]
    exact preferSomeLoop_eq_ok_none deadline attempt selected none false _
  have hvalue : ∀ value, round.result ≠ .ok (some value) := by
    intro value hok
    rw [hround] at hok hnoValue
    obtain ⟨i, hi⟩ := mem_of_preferSomeLoop_eq_ok_some deadline attempt selected none false _ value hok
    exact hnoValue _ hi value rfl
  constructor
  · rintro ⟨reported, herror⟩
    by_contra hnot
    simp only [not_or, not_forall, not_not, Bool.not_eq_true] at hnot
    obtain ⟨⟨empty, hempty, hnone⟩, hlast, hasked⟩ := hnot
    cases herror.symm.trans (hnothing.mpr ⟨hasked, hnoValue, hlast, .inr ⟨empty, hempty, hnone⟩⟩)
  · intro hcondition
    match hresult : round.result with
    | .error reported => exact ⟨reported, rfl⟩
    | .ok (some value) => exact absurd hresult (hvalue value)
    | .ok none =>
      have hfinds := hnothing.mp hresult
      obtain ⟨empty, hempty, hnone⟩ := hfinds.noData.resolve_left (by decide)
      rcases hcondition with hdata | hlast | hasked
      · exact absurd hnone (hdata empty hempty)
      · rw [hfinds.noTimeout] at hlast
        cases hlast
      · exact absurd hfinds.asked hasked

end

def threeNodes : Manager Nat := .new sampleScoring [{.all}, {.all}, {.all}] ⟨8, 8, 48⟩

/-- The first of three nodes hangs for its whole second, and the second has no data. -/
def hangThenEmpty (last : Except BeaconError (Option Unit)) : Nat → Attempt (Option Unit)
  | 0 => ⟨0, .ok none, true, 10 ^ 9⟩
  | 1 => ⟨10 ^ 9, .ok none, false, 11 * 10 ^ 8⟩
  | _ => ⟨11 * 10 ^ 8, last, false, 12 * 10 ^ 8⟩

/-- The round over three nodes with three seconds, whose last attempt ends in `last`. -/
def hangRound (last : Except BeaconError (Option Unit)) : Round Nat (Option Unit) (Option Unit) :=
  queryFirstPreferSome sampleScoring "get_payload_attestation_data" .attestation threeNodes .synced
    (some (3 * 10 ^ 9)) (hangThenEmpty last)

theorem query_first_prefer_some_hang_empty : ∃ reported, (hangRound (.ok none)).result = .error reported := by
  have hattempts : (hangRound (.ok none)).attempts =
      [(0, .error (.operationTimeout "get_payload_attestation_data" "1s")), (1, .ok none), (2, .ok none)] := by
    decide +kernel
  refine (query_first_prefer_some_hang sampleScoring "get_payload_attestation_data" .attestation threeNodes .synced
    (some (3 * 10 ^ 9)) (hangThenEmpty (.ok none)) ?_ ?_).mpr (.inr (.inl ?_))
  · change ∃ i e, (i, .error e) ∈ (hangRound (.ok none)).attempts ∧ _
    rw [hattempts]
    exact ⟨0, _, .head _, rfl⟩
  · change ∀ attempt ∈ (hangRound (.ok none)).attempts, _
    rw [hattempts]
    simp
  · change (lastFailure none (hangRound (.ok none)).attempts).any _ = true
    rw [hattempts]
    rfl

/-- A refused connection after the hang and the empty answer hides the hang. -/
theorem hang_hidden_by_refused_connection : (hangRound (.error (.httpError "connection refused"))).attempts =
        [(0, .error (.operationTimeout "get_payload_attestation_data" "1s")), (1, .ok none),
          (2, .error (.httpError "connection refused"))] ∧
      (hangRound (.error (.httpError "connection refused"))).result = .ok none := by
  decide +kernel

/-! ### `query_failover` -/

section

variable [LinearOrder K] (scoring : Scoring H K) (opName : String) (role : BnRole)

/-- After the loop; the counts are of the attempts that failed. -/
def failoverResult (lastErr : Option BeaconError) (failureCount incapableCount : Nat) : BeaconError :=
  let allIncapable := 0 < failureCount ∧ incapableCount = failureCount
  if allIncapable ∧ (lastErr.all fun e => isV4CapabilityGap opName e || isUnrecognisedFork e) then
    noEligibleBn opName role
  else lastErr.getD (noEligibleBn opName role)

def failoverLoop (deadline : Option (Nat × Nat)) (attempt : Nat → Attempt τ) (lastErr : Option BeaconError)
    (failureCount incapableCount : Nat) (manager : Manager H) : List Nat → Round H τ τ
  | [] => ⟨.error (failoverResult opName role lastErr failureCount incapableCount), [], manager⟩
  | i :: rest =>
    let bound : Except BeaconError (Option Nat) :=
      match deadline with
      | none => .ok none
      | some (deadline, total) =>
        match attemptTimeout (deadline - (attempt i).started) (rest.length + 1) with
        | some bound => .ok (some bound)
        | none => .error (.operationTimeout opName (durationText total))
    match bound with
    | .error e => ⟨.error (failoverResult opName role (some e) failureCount incapableCount), [], manager⟩
    | .ok bound =>
      match (attempt i).await bound fun _ => .timeout with
      | .ok value =>
        let elapsed := (attempt i).ended - (attempt i).started
        ⟨.ok value, [(i, .ok value)], manager.recordOutcomes scoring opName [(i, .success elapsed)]⟩
      | .error e =>
        let outcome := errorOutcome opName e
        let failureCount := failureCount + 1
        let incapableCount := if outcome.isIncapable then incapableCount + 1 else incapableCount
        let manager := manager.recordOutcomes scoring opName [(i, outcome)]
        if isProductionFailoverError e then
          (failoverLoop deadline attempt (some e) failureCount incapableCount manager rest).after i (.error e)
        else
          ⟨.error (failoverResult opName role (some e) failureCount incapableCount), [(i, .error e)], manager⟩

def queryFailover (manager : Manager H) (minTier : HealthTier) (budget : Option Nat) (now : Nat)
    (attempt : Nat → Attempt τ) : Round H τ τ :=
  let selected := manager.syncedIndices scoring role minTier opName
  if selected.1.isEmpty then ⟨.error (noEligibleBn opName role), [], selected.2⟩
  else
    let deadline := budget.map fun budget => (now + budget, budget)
    failoverLoop scoring opName role deadline attempt none 0 0 selected.2 selected.1

end

section

variable {scoring : Scoring H K} {opName : String} {role : BnRole} {deadline : Option (Nat × Nat)}
  {attempt : Nat → Attempt τ} {selected : List Nat}

inductive Retryable : BeaconError → Prop
  | connect (message : String) : Retryable (.httpError message)
  | timeout : Retryable .timeout
  | operationTimeout (operation duration : String) : Retryable (.operationTimeout operation duration)
  | missing (message : String) : Retryable (.apiError 404 message)
  | notAllowed (message : String) : Retryable (.apiError 405 message)
  | server (status : Nat) (message : String) : 500 ≤ status → status < 600 → Retryable (.apiError status message)

theorem isProductionFailoverError_iff (e : BeaconError) : isProductionFailoverError e = true ↔ Retryable e := by
  constructor
  · intro h
    cases e with
    | httpError message => exact .connect message
    | timeout => exact .timeout
    | operationTimeout operation duration => exact .operationTimeout operation duration
    | apiError status message =>
      obtain rfl | rfl | ⟨hle, hlt⟩ := of_decide_eq_true h
      · exact .missing message
      · exact .notAllowed message
      · exact .server status message hle hlt
    | _ => cases h
  · rintro (message | _ | ⟨operation, duration⟩ | message | message | ⟨status, message, hle, hlt⟩)
    any_goals rfl
    exact decide_eq_true (.inr (.inr ⟨hle, hlt⟩))

def Retried (attempts : List (Nat × Except BeaconError τ)) : Prop :=
  ∀ attempt ∈ attempts, ∃ e, attempt.2 = .error e ∧ Retryable e

/-- The node turned out not to serve the operation, or not to know the fork. -/
def incapableAttempt (opName : String) (attempt : Nat × Except BeaconError τ) : Bool :=
  match attempt.2 with
  | .error e => (errorOutcome opName e).isIncapable
  | .ok _ => false

def failureOf (opName : String) (role : BnRole) (attempts : List (Nat × Except BeaconError τ)) : BeaconError :=
  failoverResult opName role (lastFailure none attempts) attempts.length (attempts.countP (incapableAttempt opName))

section

variable (opName : String) (role : BnRole) (deadline : Option (Nat × Nat)) (attempt : Nat → Attempt τ)
  (selected : List Nat)

/-- The ways in which a round over `selected` can end, with its attempts and its result. -/
inductive Failover : List (Nat × Except BeaconError τ) → Except BeaconError τ → Prop
  | succeeded {before i value rest} : Retried before → selected = before.map Prod.fst ++ i :: rest →
      Failover (before ++ [(i, .ok value)]) (.ok value)
  | refused {before i e rest} : Retried before → selected = before.map Prod.fst ++ i :: rest → ¬Retryable e →
      Failover (before ++ [(i, .error e)]) (.error (failureOf opName role (before ++ [(i, .error e)])))
  | expired {attempts i rest instant total} : Retried attempts → selected = attempts.map Prod.fst ++ i :: rest →
      deadline = some (instant, total) → instant ≤ (attempt i).started → Failover attempts
        (.error (.operationTimeout opName (durationText total)))
  | finished {attempts} : Retried attempts → selected = attempts.map Prod.fst →
      Failover attempts (.error (failureOf opName role attempts))

end

theorem Retried.concat {attempts : List (Nat × Except BeaconError τ)} {i : Nat} {e : BeaconError}
    (h : Retried attempts) (he : Retryable e) : Retried (attempts ++ [(i, .error e)]) :=
  forall_mem_append.mpr ⟨h, forall_mem_singleton.mpr ⟨e, rfl, he⟩⟩

section

variable (attempts : List (Nat × Except BeaconError τ)) (i : Nat) (e : BeaconError)

theorem lastFailure_concat (last : Option BeaconError) : lastFailure last (attempts ++ [(i, .error e)]) = some e := by
  simp [lastFailure]

theorem countP_incapableAttempt_concat : (attempts ++ [(i, Except.error e)]).countP (incapableAttempt opName) =
      if (errorOutcome opName e).isIncapable then attempts.countP (incapableAttempt opName) + 1
      else attempts.countP (incapableAttempt opName) := by
  have hlast : incapableAttempt opName (i, (.error e : Except BeaconError τ)) = (errorOutcome opName e).isIncapable :=
    rfl
  rw [countP_append, countP_singleton, hlast]
  split <;> rfl

end

theorem attemptTimeout_eq_none {remaining bnsLeft : Nat} : attemptTimeout remaining bnsLeft = none ↔ remaining = 0 := by
  simp [attemptTimeout]

theorem failover_failoverLoop (indices : List Nat) : ∀ (past : List (Nat × Except BeaconError τ)) (manager : Manager H),
    Retried past → selected = past.map Prod.fst ++ indices →
    let round := failoverLoop scoring opName role deadline attempt (lastFailure none past) past.length
      (past.countP (incapableAttempt opName)) manager indices
    Failover opName role deadline attempt selected (past ++ round.attempts) round.result := by
  induction indices with
  | nil =>
    intro past manager hpast hselected
    rw [append_nil] at hselected
    simp only [failoverLoop, append_nil]
    exact .finished hpast hselected
  | cons i rest ih =>
    intro past manager hpast hselected
    simp only [failoverLoop]
    split
    · next e hbound =>
      split at hbound
      · cases hbound
      · next instant total =>
        split at hbound
        · cases hbound
        · next hnone =>
          cases hbound
          rw [append_nil, failoverResult, if_neg fun h => Bool.false_ne_true h.2, Option.getD_some]
          exact .expired hpast hselected rfl (Nat.sub_eq_zero_iff_le.mp (attemptTimeout_eq_none.mp hnone))
    · next bound _ =>
      split
      · exact .succeeded hpast hselected
      · next e _ =>
        have hlength : (past ++ [(i, Except.error e)]).length = past.length + 1 := length_append
        rw [← countP_incapableAttempt_concat past i e, ← lastFailure_concat past i e none, ← hlength]
        split_ifs with hretry
        · have hretried := hpast.concat (i := i) ((isProductionFailoverError_iff e).mp hretry)
          have hrec := ih (past ++ [(i, .error e)]) (manager.recordOutcomes scoring opName [(i, errorOutcome opName e)])
            hretried (by simp [hselected])
          simp only [append_assoc, singleton_append] at hrec
          exact hrec
        · exact .refused hpast hselected fun he => hretry ((isProductionFailoverError_iff e).mpr he)

theorem isIncapable_errorOutcome (opName : String) (e : BeaconError) :
    (errorOutcome opName e).isIncapable = (isV4CapabilityGap opName e || isUnrecognisedFork e) := by
  unfold errorOutcome
  split_ifs with hfork hgap
  · simp [TrackerOutcome.isIncapable, hfork]
  · simp [TrackerOutcome.isIncapable, hgap]
  · simp [TrackerOutcome.isIncapable, hfork, hgap]

theorem failureOf_of_incapable {attempts : List (Nat × Except BeaconError τ)}
    (h : ∀ attempt ∈ attempts, incapableAttempt opName attempt = true) :
    failureOf opName role attempts = noEligibleBn opName role := by
  rcases attempts.eq_nil_or_concat with rfl | ⟨before, ⟨i, result⟩, rfl⟩
  · simp [failureOf, failoverResult, lastFailure]
  · rw [concat_eq_append] at h ⊢
    have hlast := h (i, result) (by simp)
    match result with
    | .ok _ => cases hlast
    | .error e =>
      have hgap : (isV4CapabilityGap opName e || isUnrecognisedFork e) = true :=
        isIncapable_errorOutcome opName e ▸ hlast
      have hlength : 0 < (before ++ [(i, Except.error e)]).length := by simp
      rw [failureOf, failoverResult, lastFailure_concat, if_pos ⟨⟨hlength, countP_eq_length.mpr h⟩, hgap⟩]

theorem failureOf_concat {before : List (Nat × Except BeaconError τ)} {i : Nat} {e : BeaconError}
    (h : ¬∀ attempt ∈ before ++ [(i, .error e)], incapableAttempt opName attempt = true) :
    failureOf opName role (before ++ [(i, .error e)]) = e := by
  rw [failureOf, failoverResult, lastFailure_concat, if_neg fun hall => h (countP_eq_length.mp hall.1.2),
    Option.getD_some]

/-- The budget of a round ran out before the node that was next. -/
def Expired (budget : Option Nat) (now : Nat) (attempt : Nat → Attempt τ) (selected : List Nat)
    (attempts : List (Nat × Except BeaconError τ)) (total : Nat) : Prop :=
  budget = some total ∧ Retried attempts ∧
    ∃ i rest, selected = attempts.map Prod.fst ++ i :: rest ∧ now + total ≤ (attempt i).started

namespace Failover

variable {attempts : List (Nat × Except BeaconError τ)} {result : Except BeaconError τ}

section

variable (h : Failover opName role deadline attempt selected attempts result)

include h

theorem contacted_prefix : attempts.map Prod.fst <+: selected := by
  cases h with
  | @succeeded _ _ _ rest _ hselected | @refused _ _ _ rest _ hselected _ => exact ⟨rest, by simp [hselected]⟩
  | expired _ hselected _ _ => exact ⟨_, hselected.symm⟩
  | finished _ hselected => exact ⟨[], by simp [hselected]⟩

theorem retried_dropLast : Retried attempts.dropLast := by
  cases h with
  | succeeded hretried _ | refused hretried _ _ => rwa [dropLast_concat]
  | expired hretried _ _ _ => exact fun attempt hattempt => hretried attempt (mem_of_mem_dropLast hattempt)
  | finished hretried _ => exact fun attempt hattempt => hretried attempt (mem_of_mem_dropLast hattempt)

theorem result_of_mem {i : Nat} {value : τ} (hmem : (i, .ok value) ∈ attempts) : result = .ok value := by
  have hnot {attempts : List (Nat × Except BeaconError τ)} (hretried : Retried attempts) : (i, .ok value) ∉ attempts :=
    fun hmem => by obtain ⟨e, he, -⟩ := hretried _ hmem; cases he
  cases h with
  | succeeded hretried _ =>
    rcases mem_append.mp hmem with hmem | hmem
    · exact absurd hmem (hnot hretried)
    · cases mem_singleton.mp hmem
      rfl
  | refused hretried _ _ =>
    rcases mem_append.mp hmem with hmem | hmem
    · exact absurd hmem (hnot hretried)
    · cases mem_singleton.mp hmem
  | expired hretried _ _ _ | finished hretried _ => exact absurd hmem (hnot hretried)

end

theorem result_eq_error {budget : Option Nat} {now : Nat}
    (h : Failover opName role (budget.map fun budget => (now + budget, budget)) attempt selected attempts result)
    (hnone : ∀ i value, (i, .ok value) ∉ attempts) : (∀ total, Expired budget now attempt selected attempts total →
        result = .error (.operationTimeout opName (durationText total))) ∧
      ((∀ total, ¬Expired budget now attempt selected attempts total) →
        ((∀ attempt ∈ attempts, incapableAttempt opName attempt = true) → result = .error (noEligibleBn opName role)) ∧
        ((¬∀ attempt ∈ attempts, incapableAttempt opName attempt = true) →
          ∃ before i e, attempts = before ++ [(i, .error e)] ∧ result = .error e)) := by
  cases h with
  | @succeeded _ i value _ _ _ => exact absurd (by simp) (hnone i value)
  | @refused before i e _ _ hselected hrefused =>
    refine ⟨fun total hexpired => ?_, fun _ => ⟨fun hall => ?_, fun hall => ?_⟩⟩
    · obtain ⟨other, hother, hretry⟩ := hexpired.2.1 (i, .error e) (by simp)
      cases hother
      exact absurd hretry hrefused
    · rw [failureOf_of_incapable hall]
    · exact ⟨before, i, e, rfl, by rw [failureOf_concat hall]⟩
  | @expired _ i rest instant total hretried hselected hdeadline hle =>
    obtain ⟨total', hbudget, htotal⟩ := Option.map_eq_some_iff.mp hdeadline
    cases htotal
    refine ⟨fun other hexpired => ?_, fun hnot => ?_⟩
    · cases hbudget.symm.trans hexpired.1
      rfl
    · exact absurd ⟨hbudget, hretried, i, rest, hselected, hle⟩ (hnot _)
  | finished hretried hselected =>
    refine ⟨fun total hexpired => ?_, fun _ => ⟨fun hall => ?_, fun hall => ?_⟩⟩
    · obtain ⟨i, rest, hmore, -⟩ := hexpired.2.2
      rw [hselected] at hmore
      simpa using congrArg List.length hmore
    · rw [failureOf_of_incapable hall]
    · rcases attempts.eq_nil_or_concat with rfl | ⟨before, ⟨i, answer⟩, rfl⟩
      · exact absurd nofun hall
      · rw [concat_eq_append] at hall hretried ⊢
        obtain ⟨e, rfl, -⟩ := hretried (i, answer) (by simp)
        exact ⟨before, i, e, rfl, by rw [failureOf_concat hall]⟩

end Failover

theorem failover_queryFailover [LinearOrder K] (scoring : Scoring H K) (opName : String) (role : BnRole)
    (manager : Manager H) (minTier : HealthTier) (budget : Option Nat) (now : Nat) (attempt : Nat → Attempt τ) :
    let round := queryFailover scoring opName role manager minTier budget now attempt
    Failover opName role (budget.map fun budget => (now + budget, budget)) attempt
      (manager.syncedIndices scoring role minTier opName).1 round.attempts round.result := by
  simp only [queryFailover]
  split_ifs with hempty
  · have hnil : failureOf opName role ([] : List (Nat × Except BeaconError τ)) = noEligibleBn opName role :=
      failureOf_of_incapable fun _ hattempt => nomatch hattempt
    have hround := @Failover.finished τ opName role (budget.map fun budget => (now + budget, budget)) attempt
      (manager.syncedIndices scoring role minTier opName).1 [] nofun (isEmpty_iff.mp hempty)
    rwa [hnil] at hround
  · exact failover_failoverLoop _ [] _ nofun rfl

/-- Block production asks one node after another, and none after a decisive answer. -/
theorem query_failover_decisive [LinearOrder K] (scoring : Scoring H K) (opName : String) (role : BnRole)
    (manager : Manager H) (minTier : HealthTier) (budget : Option Nat) (now : Nat) (attempt : Nat → Attempt τ) :
    let selected := (manager.syncedIndices scoring role minTier opName).1
    let round := queryFailover scoring opName role manager minTier budget now attempt
    let contacted := round.attempts.map Prod.fst
    contacted <+: selected ∧ contacted.Nodup ∧
      (∀ before i result after, round.attempts = before ++ (i, result) :: after → Retried before) ∧
      (∀ i value, (i, .ok value) ∈ round.attempts → round.result = .ok value) ∧
      ((∀ i value, (i, .ok value) ∉ round.attempts) →
        (∀ total, Expired budget now attempt selected round.attempts total →
          round.result = .error (.operationTimeout opName (durationText total))) ∧
        ((∀ total, ¬Expired budget now attempt selected round.attempts total) →
          ((∀ attempt ∈ round.attempts, incapableAttempt opName attempt = true) →
            round.result = .error (noEligibleBn opName role)) ∧
          ((¬∀ attempt ∈ round.attempts, incapableAttempt opName attempt = true) →
            ∃ before i e, round.attempts = before ++ [(i, .error e)] ∧ round.result = .error e))) := by
  intro selected round contacted
  have hround : Failover opName role (budget.map fun budget => (now + budget, budget)) attempt selected round.attempts
      round.result := failover_queryFailover scoring opName role manager minTier budget now attempt
  have hnodup := hround.contacted_prefix.sublist.nodup (Manager.nodup_syncedIndices scoring role minTier opName)
  refine ⟨hround.contacted_prefix, hnodup, ?_, fun i value => hround.result_of_mem, hround.result_eq_error⟩
  intro before i result after hattempts attempt hattempt
  refine hround.retried_dropLast attempt ?_
  rw [hattempts, dropLast_append_of_ne_nil (cons_ne_nil _ _)]
  exact mem_append_left _ hattempt

end

/-- The first of three nodes hangs for its share of the budget, and the second makes a block that does not parse. -/
def hangThenMalformed : Nat → Attempt Unit
  | 0 => ⟨0, .ok (), true, 10 ^ 9⟩
  | 1 => ⟨10 ^ 9, .error (.parseError "missing field"), false, 11 * 10 ^ 8⟩
  | _ => ⟨11 * 10 ^ 8, .ok (), false, 12 * 10 ^ 8⟩

theorem query_failover_decisive_three :
    let round := queryFailover sampleScoring produceBlockV4 .proposal threeNodes .synced (some (3 * 10 ^ 9)) 0
      hangThenMalformed
    round.attempts = [(0, .error .timeout), (1, .error (.parseError "missing field"))] ∧
      ∃ before i e, round.attempts = before ++ [(i, .error e)] ∧ round.result = .error e := by
  intro round
  have hattempts : round.attempts = [(0, .error .timeout), (1, .error (.parseError "missing field"))] := by
    decide +kernel
  obtain ⟨-, -, -, -, herror⟩ := query_failover_decisive sampleScoring produceBlockV4 .proposal threeNodes .synced
    (some (3 * 10 ^ 9)) 0 hangThenMalformed
  refine ⟨hattempts, ((herror ?_).2 ?_).2 ?_⟩
  · change ∀ i value, (i, .ok value) ∉ round.attempts
    rw [hattempts]
    simp
  · intro total hexpired
    have hretried : Retried round.attempts := hexpired.2.1
    rw [hattempts] at hretried
    obtain ⟨e, he, hretry⟩ := hretried (1, .error (.parseError "missing field")) (by simp)
    cases he
    cases hretry
  · change ¬∀ attempt ∈ round.attempts, incapableAttempt produceBlockV4 attempt = true
    rw [hattempts]
    decide +kernel

end Rvc.BnManager
