import Mathlib.Data.List.Induction
import Rvc.Orchestrator.Attestation

/-!
# Publishing a wave

`publish_wave`: what has been signed so far goes to the beacon node in one array. The beacon node answers with positions
in that array. A position leads back to a duty because the array is put together in the order of the entries, each of
which adds one item to it, and because failed duties are taken out before. `publishWave_spec` says so of a wave of any
shape and of any answer.
-/

namespace Rvc.Orchestrator.Attestation

open Rvc.Lib Rvc.EthTypes List Function Nat UInt32 Option

/-! ### The array of a wave -/

def attestationVariantName : VersionedAttestation → String
  | .gloas _ => "Gloas"
  | .fulu _ => "Fulu"
  | .electra _ => "Electra"
  | .preElectra _ => "PreElectra"

def waveIsHomogeneous : List WaveEntry → Bool
  | [] => true
  | first :: rest =>
    (first :: rest).all fun entry => attestationVariantName entry.attestation = attestationVariantName first.attestation

def collectSingles (entries : List WaveEntry) (pick : VersionedAttestation → Option (List SingleAttestation)) :
    List SingleAttestation :=
  entries.flatMap fun entry => (pick entry.attestation).getD []

/-- The items of the pre-Electra entries, which `merge_wave` collects in a loop of its own. -/
def collectLegacy (entries : List WaveEntry) : List LegacyAttestation :=
  entries.flatMap fun entry =>
    match entry.attestation with
    | .preElectra items => items
    | _ => []

def VersionedAttestation.electra? : VersionedAttestation → Option (List SingleAttestation)
  | .electra items => some items
  | _ => none

def VersionedAttestation.fulu? : VersionedAttestation → Option (List SingleAttestation)
  | .fulu items => some items
  | _ => none

def VersionedAttestation.gloas? : VersionedAttestation → Option (List SingleAttestation)
  | .gloas items => some items
  | _ => none

def mergeWave (first : WaveEntry) (rest : List WaveEntry) : VersionedAttestation :=
  match first.attestation with
  | .preElectra _ => .preElectra (collectLegacy (first :: rest))
  | .electra _ => .electra (collectSingles (first :: rest) VersionedAttestation.electra?)
  | .fulu _ => .fulu (collectSingles (first :: rest) VersionedAttestation.fulu?)
  | .gloas _ => .gloas (collectSingles (first :: rest) VersionedAttestation.gloas?)

theorem collectSingles_items {entries : List WaveEntry} {pick : VersionedAttestation → Option (List SingleAttestation)}
    (h : ∀ entry ∈ entries, ∃ items, pick entry.attestation = some items ∧ entry.attestation.items = items.map .inr) :
    (collectSingles entries pick).map Sum.inr = entries.flatMap fun entry => entry.attestation.items := by
  unfold collectSingles
  rw [map_flatMap]
  refine flatMap_congr fun entry hentry => ?_
  obtain ⟨items, hpick, hitems⟩ := h entry hentry
  rw [hpick, hitems]
  rfl

theorem collectLegacy_items {entries : List WaveEntry}
    (h : ∀ entry ∈ entries, ∃ items, entry.attestation = .preElectra items) :
    (collectLegacy entries).map Sum.inl = entries.flatMap fun entry => entry.attestation.items := by
  unfold collectLegacy
  rw [map_flatMap]
  refine flatMap_congr fun entry hentry => ?_
  obtain ⟨items, hitems⟩ := h entry hentry
  rw [hitems]
  rfl

theorem mergeWave_items {first : WaveEntry} {rest : List WaveEntry} (h : waveIsHomogeneous (first :: rest) = true) :
    (mergeWave first rest).items = (first :: rest).flatMap fun entry => entry.attestation.items := by
  have hsame : ∀ entry ∈ first :: rest,
      attestationVariantName entry.attestation = attestationVariantName first.attestation := by
    simpa [waveIsHomogeneous] using h
  unfold mergeWave
  cases hkind : first.attestation with
  | preElectra items =>
    refine collectLegacy_items fun entry hentry => ?_
    have hname := hsame entry hentry
    cases hentry' : entry.attestation <;> simp [hkind, hentry', attestationVariantName] at hname ⊢
  | electra items | fulu items | gloas items =>
    refine collectSingles_items fun entry hentry => ?_
    have hname := hsame entry hentry
    cases hentry' : entry.attestation <;> simp [hkind, hentry', attestationVariantName] at hname
    exact ⟨_, rfl, rfl⟩

/-! ### `propagate_indexed` -/

structure IndexedAttestationError where
  index : UInt32
  message : String
  deriving DecidableEq

inductive SubmitAttestationResult where
  | success
  | partialFailure (failures : List IndexedAttestationError)
  deriving DecidableEq

def SubmitAttestationResult.failures : SubmitAttestationResult → List IndexedAttestationError
  | .success => []
  | .partialFailure failures => failures

structure PropagationOutcome where
  total : ℕ
  successCount : ℕ
  failures : List IndexedAttestationError
  reportedBy : Option String
  deriving DecidableEq

/-- `Propagator::propagate_indexed`, given what the submitter comes to. Its error is the text of the beacon error. -/
def propagateIndexed (attestations : VersionedAttestation)
    (submitted : Except String (Option String × SubmitAttestationResult)) : Except String PropagationOutcome :=
  let total := attestations.items.length
  if total = 0 then .ok ⟨0, 0, [], none⟩
  else
    match submitted with
    | .error error => .error ("Beacon client error: " ++ error)
    | .ok (reportedBy, .success) => .ok ⟨total, total, [], reportedBy⟩
    | .ok (reportedBy, .partialFailure failures) =>
      if failures.length = 0 then .ok ⟨total, total, failures, reportedBy⟩
      else .ok ⟨total, total - failures.length, failures, reportedBy⟩

/-! ### `publish_wave` -/

def slotEndPublishOverhang : ℕ := 500000000

/-- What publishing depends on. Times are nanoseconds on the monotonic clock. -/
structure PublishConfig where
  slotEnd : ℕ
  attestationSubmit : ℕ
  lastInstant : ℕ
  endpointLabel : String → String

def attestationPublishStopMessage (boundedByOverhang : Bool) (submitTimeout : ℕ) : String :=
  if boundedByOverhang then
    "Attestation publish exceeded the " ++ (slotEndPublishOverhang / 1000000).repr ++ " ms slot-end overhang"
  else "Attestation submit timed out after " ++ (submitTimeout / 1000000000).repr ++ "s"

namespace PublishConfig

variable (cfg : PublishConfig) (now : ℕ)

def overhangAt : ℕ := cfg.slotEnd + slotEndPublishOverhang

/-- `now.checked_add(attestation_submit).unwrap_or(overhang_at)`. -/
def submitAt : ℕ :=
  if now + cfg.attestationSubmit ≤ cfg.lastInstant then now + cfg.attestationSubmit else cfg.overhangAt

def deadline : ℕ := min cfg.overhangAt (cfg.submitAt now)

def stopMessage : String :=
  attestationPublishStopMessage (cfg.deadline now = cfg.overhangAt) cfg.attestationSubmit

end PublishConfig

def successfulPublish (entry : WaveEntry) : AttestationResult :=
  ⟨entry.attribution.validatorIndex, entry.attribution.slot, .published⟩

def failedPublish (error : String) (entry : WaveEntry) : AttestationResult :=
  ⟨entry.attribution.validatorIndex, entry.attribution.slot, .failed error⟩

def rejectedPublish (bn : Option String) (message : String) (entry : WaveEntry) : AttestationResult :=
  ⟨entry.attribution.validatorIndex, entry.attribution.slot, .rejectedByBeaconNode bn message⟩

/-- The failures by position in a wave of `len` entries, and whether one is at no position of it. -/
def sortFailures (len : ℕ) (failures : List IndexedAttestationError) : (UInt32 → Option String) × Bool :=
  failures.foldl (fun sorted failure =>
      if failure.index.toNat < len then (update sorted.1 failure.index (some failure.message), sorted.2)
      else (sorted.1, true))
    (fun _ => none, false)

def waveIndex (position : ℕ) : UInt32 := if position < 2 ^ 32 then UInt32.ofNat position else UInt32.ofNat (2 ^ 32 - 1)

/-- The loop over the entries from `position` on, which takes the failures out of the map. -/
def judgeEntries (bn : Option String) (unattributable : Bool) :
    ℕ → (UInt32 → Option String) → List WaveEntry → List AttestationResult
  | _, _, [] => []
  | position, rejected, entry :: entries =>
    match rejected (waveIndex position) with
    | some message =>
      rejectedPublish bn message entry ::
        judgeEntries bn unattributable (position + 1) (update rejected (waveIndex position) none) entries
    | none =>
      (if unattributable then failedPublish "beacon node reported an unattributable attestation failure" entry
        else successfulPublish entry) :: judgeEntries bn unattributable (position + 1) rejected entries

inductive PostOutcome where
  | answered (submitted : Except String (Option String × SubmitAttestationResult))
  | elapsed

section

variable (cfg : PublishConfig) (now : ℕ)

/-- What becomes of the entries of a wave once its POST has ended. -/
def concludeWave (array : VersionedAttestation) (signed : List WaveEntry) : PostOutcome → List AttestationResult
  | .elapsed => signed.map (failedPublish (cfg.stopMessage now))
  | .answered submitted =>
    match propagateIndexed array submitted with
    | .error error => signed.map (failedPublish ("Failed to propagate attestation: " ++ error))
    | .ok outcome =>
      let bn := (outcome.reportedBy.filter fun endpoint => !endpoint.isEmpty).map cfg.endpointLabel
      let sorted := sortFailures signed.length outcome.failures
      judgeEntries bn sorted.2 0 sorted.1 signed

/-- What `publish_wave` does with the signed entries before anything is sent. -/
inductive WavePlan where
  | nothing
  | refuse (message : String)
  | post (array : VersionedAttestation)

def planWave : List WaveEntry → WavePlan
  | [] => .nothing
  | first :: rest =>
    if !waveIsHomogeneous (first :: rest) then .refuse "mixed attestation fork in one publish wave"
    else if cfg.deadline now ≤ now then .refuse (cfg.stopMessage now)
    else .post (mergeWave first rest)

def failedResult? : Except AttestationResult WaveEntry → Option AttestationResult
  | .ok _ => none
  | .error result => some result

def asSigned? : Except AttestationResult WaveEntry → Option WaveEntry
  | .ok entry => some entry
  | .error _ => none

/-- `publish_wave` at the time `now`; `outcome` is how its POST ends, if there is one. -/
def publishWave (outcome : PostOutcome) (wave : List (Except AttestationResult WaveEntry)) : List AttestationResult :=
  let results := wave.filterMap failedResult?
  let signed := wave.filterMap asSigned?
  match planWave cfg now signed with
  | .nothing => results
  | .refuse message => results ++ signed.map (failedPublish message)
  | .post array => results ++ concludeWave cfg now array signed outcome

end

/-! ### Reading the report -/

theorem sortFailures_append (len : ℕ) (failures : List IndexedAttestationError) (failure : IndexedAttestationError) :
    sortFailures len (failures ++ [failure]) =
      if failure.index.toNat < len then
        (update (sortFailures len failures).1 failure.index (some failure.message), (sortFailures len failures).2)
      else ((sortFailures len failures).1, true) := by
  simp [sortFailures]

variable {failures : List IndexedAttestationError}

theorem isSome_sortFailures {len : ℕ} {index : UInt32} :
    ((sortFailures len failures).1 index).isSome ↔ index.toNat < len ∧ ∃ failure ∈ failures, failure.index = index := by
  induction failures using reverseRecOn with
  | nil => simp [sortFailures]
  | append_singleton failures failure ih =>
    rw [sortFailures_append]
    by_cases hlen : failure.index.toNat < len
    · by_cases hindex : index = failure.index
      · subst hindex
        simp [hlen]
      · simp [hlen, ih, hindex, Ne.symm hindex]
    · have hother : index.toNat < len → failure.index ≠ index := fun hlt heq => hlen (heq ▸ hlt)
      simp only [hlen, if_false, ih]
      aesop

theorem sortFailures_unattributable {len : ℕ} :
    (sortFailures len failures).2 = true ↔ ∃ failure ∈ failures, len ≤ failure.index.toNat := by
  induction failures using reverseRecOn with
  | nil => simp [sortFailures]
  | append_singleton failures failure ih =>
    rw [sortFailures_append]
    by_cases hlen : failure.index.toNat < len
    · simp [hlen, ih, not_le.mpr hlen]
    · simp [hlen, not_lt.mp hlen]

def verdict (bn : Option String) (unattributable : Bool) (rejected : UInt32 → Option String) (position : ℕ)
    (entry : WaveEntry) : AttestationResult :=
  match (if position < 2 ^ 32 then rejected (UInt32.ofNat position) else none) with
  | some message => rejectedPublish bn message entry
  | none =>
    if unattributable then failedPublish "beacon node reported an unattributable attestation failure" entry
    else successfulPublish entry

variable {position : ℕ}

theorem toNat_waveIndex (h : position < 2 ^ 32) : (waveIndex position).toNat = position := by
  rw [waveIndex, if_pos h, toNat_ofNat', mod_eq_of_lt h]

theorem toNat_waveIndex_lt (h : ¬ position < 2 ^ 32) : (waveIndex position).toNat < position := by
  have hlt := (waveIndex position).toNat_lt
  omega

theorem toNat_waveIndex_le (position : ℕ) : (waveIndex position).toNat ≤ position := by
  by_cases h : position < 2 ^ 32
  · exact (toNat_waveIndex h).le
  · exact (toNat_waveIndex_lt h).le

/-- The loop at `position`: what is before it has been taken out of the map, and the rest is still there. -/
theorem judgeEntries_eq {bn : Option String} {unattributable : Bool} {rejected left : UInt32 → Option String}
    (hleft : ∀ index, position ≤ index.toNat → left index = rejected index)
    (htaken : ∀ index, index.toNat < position → left index = none) (entries : List WaveEntry) :
    judgeEntries bn unattributable position left entries =
      entries.mapIdx fun offset => verdict bn unattributable rejected (position + offset) := by
  induction entries generalizing position left with
  | nil => rfl
  | cons entry entries ih =>
    have hhere : left (waveIndex position) =
        if position < 2 ^ 32 then rejected (UInt32.ofNat position) else none := by
      split
      · next hlt =>
        rw [hleft _ (toNat_waveIndex hlt).ge, waveIndex, if_pos hlt]
      · next hlarge => exact htaken _ (toNat_waveIndex_lt hlarge)
    have hnext : ∀ {left'}, (∀ index, position + 1 ≤ index.toNat → left' index = left index) →
        (∀ index, index.toNat < position + 1 → left' index = none) →
        judgeEntries bn unattributable (position + 1) left' entries =
          entries.mapIdx fun offset => verdict bn unattributable rejected (position + (offset + 1)) := by
      intro left' hsame hgone
      rw [ih (fun index hle => (hsame index hle).trans (hleft index (Nat.le_of_succ_le hle))) hgone]
      simp only [Nat.add_assoc, Nat.add_comm 1]
    -- the entry just read is no longer in the map
    have hgone : ∀ {index : UInt32}, index.toNat < position + 1 → index ≠ waveIndex position → left index = none := by
      intro index hlt hne
      apply htaken
      by_cases hsmall : position < 2 ^ 32
      · have htoNat : index.toNat ≠ position := fun heq =>
          hne (UInt32.toNat_inj.mp (heq.trans (toNat_waveIndex hsmall).symm))
        omega
      · have hindex := index.toNat_lt
        omega
    rw [judgeEntries, mapIdx_cons, verdict]
    simp only [Nat.add_zero]
    rw [← hhere]
    cases hentry : left (waveIndex position) with
    | some message =>
      refine congrArg (_ :: ·) (hnext ?_ ?_)
      · intro index hle
        have hne : index ≠ waveIndex position := by
          rintro rfl
          have hindex := toNat_waveIndex_le position
          omega
        exact update_of_ne hne _ _
      · intro index hlt
        by_cases hindex : index = waveIndex position
        · rw [hindex, update_self]
        · rw [update_of_ne hindex, hgone hlt hindex]
    | none =>
      refine congrArg (_ :: ·) (hnext (fun _ _ => rfl) ?_)
      intro index hlt
      by_cases hindex : index = waveIndex position
      · rw [hindex, hentry]
      · exact hgone hlt hindex

def Names (failures : List IndexedAttestationError) (position : ℕ) : Prop :=
  ∃ failure ∈ failures, failure.index.toNat = position

/-- The report names positions of an array of that length only. -/
def InRange (failures : List IndexedAttestationError) (len : ℕ) : Prop :=
  ∀ failure ∈ failures, failure.index.toNat < len

def AttestationOutcome.isRejection : AttestationOutcome → Bool
  | .rejectedByBeaconNode _ _ => true
  | _ => false

theorem isSome_rejected_iff {len : ℕ} (h : position < len) :
    (if position < 2 ^ 32 then (sortFailures len failures).1 (UInt32.ofNat position) else none).isSome ↔
      Names failures position := by
  by_cases hsmall : position < 2 ^ 32
  · have htoNat : (UInt32.ofNat position).toNat = position := by
      rw [UInt32.toNat_ofNat', Nat.mod_eq_of_lt hsmall]
    have hindex : ∀ index : UInt32, index = UInt32.ofNat position ↔ index.toNat = position := fun index => by
      rw [← UInt32.toNat_inj, htoNat]
    rw [if_pos hsmall, isSome_sortFailures, htoNat]
    simp only [h, true_and, hindex]
    rfl
  · have hnone : ¬ Names failures position := by
      rintro ⟨failure, -, hindex⟩
      exact hsmall (hindex ▸ failure.index.toNat_lt)
    rw [if_neg hsmall]
    simp [hnone]

section

variable {len : ℕ} (h : position < len) (bn : Option String) (entry : WaveEntry)
include h

theorem verdict_isRejection :
    (verdict bn (sortFailures len failures).2 (sortFailures len failures).1 position entry).outcome.isRejection = true ↔
      Names failures position := by
  rw [← isSome_rejected_iff h, verdict]
  split
  · next message hsome =>
    rw [hsome]
    exact iff_of_true rfl rfl
  · next hnone =>
    rw [hnone]
    split <;> exact iff_of_false nofun nofun

theorem verdict_published :
    (verdict bn (sortFailures len failures).2 (sortFailures len failures).1 position entry).outcome = .published ↔
      ¬ Names failures position ∧ InRange failures len := by
  have hrange : (sortFailures len failures).2 = true ↔ ¬ InRange failures len := by
    rw [sortFailures_unattributable]
    simp [InRange]
  rw [← isSome_rejected_iff h, verdict]
  split
  · next message hsome =>
    rw [hsome]
    exact iff_of_false nofun (fun hnot => hnot.1 rfl)
  · next hnone =>
    rw [hnone]
    split
    · next hunattributable => exact iff_of_false nofun (fun hnot => hrange.mp hunattributable hnot.2)
    · next hattributable => exact iff_of_true rfl ⟨nofun, not_not.mp fun hout => hattributable (hrange.mpr hout)⟩

end

def AttestationResult.label (result : AttestationResult) : String × ℕ := (result.validatorIndex, result.slot)

def WaveEntry.label (entry : WaveEntry) : String × ℕ := (entry.attribution.validatorIndex, entry.attribution.slot)

theorem verdict_label (bn : Option String) (unattributable : Bool) (rejected : UInt32 → Option String)
    (position : ℕ) (entry : WaveEntry) :
    (verdict bn unattributable rejected position entry).label = entry.label := by
  unfold verdict
  split
  · rfl
  · split <;> rfl

/-! ### A wave and its duties -/

variable {array : VersionedAttestation}

theorem propagateIndexed_of_report (harray : array.items.length ≠ 0)
    (reportedBy : Option String) (result : SubmitAttestationResult) :
    ∃ outcome, propagateIndexed array (.ok (reportedBy, result)) = .ok outcome ∧
      outcome.failures = result.failures := by
  unfold propagateIndexed
  rw [if_neg harray]
  cases result with
  | success => exact ⟨_, rfl, rfl⟩
  | partialFailure failures =>
    dsimp only
    split <;> exact ⟨_, rfl, rfl⟩

def PostOutcome.report? : PostOutcome → Option (List IndexedAttestationError)
  | .answered (.ok (_, result)) => some result.failures
  | _ => none

/-- What `judge` makes of an entry is what the outcome of the POST says of its position. -/
def Judges (judge : ℕ → WaveEntry → AttestationResult) (outcome : PostOutcome) (len : ℕ) : Prop :=
  ∀ position entry, position < len →
    (judge position entry).label = entry.label ∧
    ((judge position entry).outcome.isRejection = true ↔
      ∃ failures, outcome.report? = some failures ∧ Names failures position) ∧
    ((judge position entry).outcome = .published ↔
      ∃ failures, outcome.report? = some failures ∧ ¬ Names failures position ∧ InRange failures len)

theorem judges_failedPublish (message : String) {outcome : PostOutcome} (h : outcome.report? = none) (len : ℕ) :
    Judges (fun _ => failedPublish message) outcome len := by
  intro position entry _
  have hreport : ∀ P : List IndexedAttestationError → Prop,
      ¬ ∃ failures, outcome.report? = some failures ∧ P failures := by
    rintro P ⟨failures, hsome, -⟩
    rw [h] at hsome
    cases hsome
  exact ⟨rfl, iff_of_false nofun (hreport _), iff_of_false nofun (hreport _)⟩

theorem map_eq_mapIdx {α β : Type} (f : α → β) (xs : List α) : xs.map f = xs.mapIdx fun _ => f := by
  apply ext_getElem?
  simp

variable {signed : List WaveEntry}

theorem concludeWave_eq (cfg : PublishConfig) (now : ℕ)
    (harray : array.items.length = signed.length) (hsigned : signed ≠ []) (outcome : PostOutcome) :
    ∃ judge, concludeWave cfg now array signed outcome = signed.mapIdx judge ∧
      Judges judge outcome signed.length := by
  have hne : array.items.length ≠ 0 := by
    rw [harray]
    exact fun hnil => hsigned (length_eq_zero_iff.mp hnil)
  cases outcome with
  | elapsed => exact ⟨_, map_eq_mapIdx _ signed, judges_failedPublish _ rfl _⟩
  | answered submitted =>
    cases submitted with
    | error error =>
      have herror : propagateIndexed array (.error error) = .error ("Beacon client error: " ++ error) := if_neg hne
      refine ⟨_, ?_, judges_failedPublish ("Failed to propagate attestation: " ++ ("Beacon client error: " ++ error))
        rfl _⟩
      rw [concludeWave, herror]
      exact map_eq_mapIdx _ signed
    | ok report =>
      obtain ⟨reportedBy, result⟩ := report
      obtain ⟨outcome, hok, hfailures⟩ := propagateIndexed_of_report hne reportedBy result
      let bn := (outcome.reportedBy.filter fun endpoint => !endpoint.isEmpty).map cfg.endpointLabel
      let sorted := sortFailures signed.length outcome.failures
      refine ⟨verdict bn sorted.2 sorted.1, ?_, ?_⟩
      · have hloop : judgeEntries bn sorted.2 0 sorted.1 signed =
            signed.mapIdx fun offset => verdict bn sorted.2 sorted.1 (0 + offset) :=
          judgeEntries_eq (fun _ _ => rfl) (fun _ hlt => absurd hlt (not_lt_zero _)) signed
        simp only [zero_add] at hloop
        rw [concludeWave, hok]
        exact hloop
      · intro position entry hposition
        have hlabel := verdict_label bn sorted.2 sorted.1 position entry
        have hreport : ∀ P : List IndexedAttestationError → Prop,
            (∃ failures, (PostOutcome.answered (.ok (reportedBy, result))).report? = some failures ∧ P failures) ↔
              P outcome.failures := by
          intro P
          simp [PostOutcome.report?, hfailures]
        rw [hreport, hreport]
        exact ⟨hlabel, verdict_isRejection hposition bn entry, verdict_published hposition bn entry⟩

abbrev WaveItem := Except AttestationResult WaveEntry

def waveItemLabel : WaveItem → String × ℕ
  | .ok entry => entry.label
  | .error result => result.label

/-- A signed item is an array of one, and a failed one neither published nor rejected. -/
def WellFormed : WaveItem → Prop
  | .ok entry => ∃ item, entry.attestation.items = [item]
  | .error result => ∃ message, result.outcome = .failed message

section

variable (schedule : ForkSchedule) (memo : AttestationDataMemo) (duty : TypedAttesterDuty) (answers : AttestAnswers)

theorem signOne_wellFormed : WellFormed (signOne schedule memo duty answers) := by
  unfold signOne
  split
  · next attestation hok => exact attest_items hok
  · exact ⟨_, rfl⟩

theorem signOne_label : waveItemLabel (signOne schedule memo duty answers) = (duty.rawValidatorIndex, duty.slot) := by
  unfold signOne
  split <;> rfl

end

section

variable {τ : Type}

def failedOf (wave : List (τ × WaveItem)) : List (τ × AttestationResult) :=
  wave.filterMap fun x => (failedResult? x.2).map (x.1, ·)

def signedOf (wave : List (τ × WaveItem)) : List (τ × WaveEntry) :=
  wave.filterMap fun x => (asSigned? x.2).map (x.1, ·)

theorem map_snd_failedOf (wave : List (τ × WaveItem)) :
    (failedOf wave).map Prod.snd = (wave.map Prod.snd).filterMap failedResult? := by
  simp [failedOf, map_filterMap, filterMap_map, comp_def]

theorem map_snd_signedOf (wave : List (τ × WaveItem)) :
    (signedOf wave).map Prod.snd = (wave.map Prod.snd).filterMap asSigned? := by
  simp [signedOf, map_filterMap, filterMap_map, comp_def]

theorem perm_failedOf_signedOf (wave : List (τ × WaveItem)) :
    ((failedOf wave).map Prod.fst ++ (signedOf wave).map Prod.fst).Perm (wave.map Prod.fst) := by
  induction wave with
  | nil => exact .nil
  | cons x wave ih =>
    obtain ⟨t, item⟩ := x
    cases item with
    | ok entry => exact perm_middle.trans (ih.cons t)
    | error result => exact ih.cons t

/-- A wave that was sent: its entries in the order of the array, and how the POST ended. -/
structure Post (τ : Type) where
  entries : List (τ × WaveEntry)
  array : VersionedAttestation
  outcome : PostOutcome

namespace Post

/-- The item of the array at the position is that of the tag. -/
def Holds (post : Post τ) (t : τ) (position : ℕ) : Prop := ∃ entry, post.entries[position]? = some (t, entry)

def Aligned (post : Post τ) : Prop :=
  List.Forall₂ (fun x item => x.2.attestation.items = [item]) post.entries post.array.items

def Blames (post : Post τ) (position : ℕ) : Prop :=
  ∃ failures, post.outcome.report? = some failures ∧ Names failures position

/-- There is a report, and it names other positions of the array only. -/
def Clears (post : Post τ) (position : ℕ) : Prop :=
  ∃ failures, post.outcome.report? = some failures ∧ ¬ Names failures position ∧
    InRange failures post.array.items.length

end Post

def wavePost (cfg : PublishConfig) (now : ℕ) (outcome : PostOutcome) (wave : List (τ × WaveItem)) : Option (Post τ) :=
  match planWave cfg now ((signedOf wave).map Prod.snd) with
  | .post array => some ⟨signedOf wave, array, outcome⟩
  | _ => none

/-- `account` gives every item of the wave its result, and the right one. -/
structure WaveAccount (wave : List (τ × WaveItem)) (results : List AttestationResult) (post : Option (Post τ))
    (account : List (τ × AttestationResult)) : Prop where
  results : account.map Prod.snd = results
  tags : (account.map Prod.fst).Perm (wave.map Prod.fst)
  label : ∀ x ∈ account, ∃ item, (x.1, item) ∈ wave ∧ x.2.label = waveItemLabel item
  sent : ∀ x ∈ account, x.2.outcome = .published ∨ x.2.outcome.isRejection = true →
    ∃ p ∈ post, ∃ position, p.Holds x.1 position
  judged : ∀ p ∈ post, ∀ t position, p.Holds t position → ∃ result, (t, result) ∈ account ∧
    (result.outcome = .published ↔ p.Clears position) ∧ (result.outcome.isRejection = true ↔ p.Blames position)
  aligned : ∀ p ∈ post, p.Aligned
  own : ∀ p ∈ post, ∀ x ∈ p.entries, (x.1, .ok x.2) ∈ wave

/-- The failed items with their results, then the signed ones with what `judge` makes of them. -/
def accountOf (wave : List (τ × WaveItem)) (judge : ℕ → WaveEntry → AttestationResult) : List (τ × AttestationResult) :=
  failedOf wave ++ (signedOf wave).mapIdx fun position x => (x.1, judge position x.2)

section

variable (wave : List (τ × WaveItem)) (judge : ℕ → WaveEntry → AttestationResult)

theorem map_snd_accountOf : (accountOf wave judge).map Prod.snd =
      (wave.map Prod.snd).filterMap failedResult? ++ ((wave.map Prod.snd).filterMap asSigned?).mapIdx judge := by
  rw [accountOf, map_append, map_snd_failedOf, ← map_snd_signedOf]
  congr 1
  apply ext_getElem?
  simp [comp_def]

theorem map_fst_accountOf : ((accountOf wave judge).map Prod.fst).Perm (wave.map Prod.fst) := by
  have hsigned : ((signedOf wave).mapIdx fun position x => (x.1, judge position x.2)).map Prod.fst =
      (signedOf wave).map Prod.fst := by
    apply ext_getElem?
    simp [comp_def]
  rw [accountOf, map_append, hsigned]
  exact perm_failedOf_signedOf wave

end

variable {wave : List (τ × WaveItem)} {judge : ℕ → WaveEntry → AttestationResult}
  {x : τ × AttestationResult}

theorem mem_accountOf : x ∈ accountOf wave judge ↔ x ∈ failedOf wave ∨
      ∃ position entry, (signedOf wave)[position]? = some (x.1, entry) ∧ x.2 = judge position entry := by
  rw [accountOf, mem_append, mem_iff_getElem? (l := mapIdx _ _)]
  refine or_congr_right ⟨?_, ?_⟩
  · rintro ⟨position, hx⟩
    rw [getElem?_mapIdx, map_eq_some_iff] at hx
    obtain ⟨⟨t, entry⟩, hentry, rfl⟩ := hx
    exact ⟨position, entry, hentry, rfl⟩
  · rintro ⟨position, entry, hentry, hjudge⟩
    refine ⟨position, ?_⟩
    rw [getElem?_mapIdx, hentry, map_some, ← hjudge]

theorem mem_failedOf : x ∈ failedOf wave ↔ (x.1, .error x.2) ∈ wave := by
  unfold failedOf
  rw [mem_filterMap]
  constructor
  · rintro ⟨⟨t, item⟩, hmem, hx⟩
    cases item with
    | ok entry => cases hx
    | error result =>
      cases hx
      exact hmem
  · intro hmem
    exact ⟨_, hmem, rfl⟩

theorem mem_signedOf {x : τ × WaveEntry} : x ∈ signedOf wave ↔ (x.1, .ok x.2) ∈ wave := by
  unfold signedOf
  rw [mem_filterMap]
  constructor
  · rintro ⟨⟨t, item⟩, hmem, hx⟩
    cases item with
    | ok entry =>
      cases hx
      exact hmem
    | error result => cases hx
  · intro hmem
    exact ⟨_, hmem, rfl⟩

theorem label_accountOf
    (hjudge : ∀ position entry, position < (signedOf wave).length → (judge position entry).label = entry.label)
    (hx : x ∈ accountOf wave judge) :
    ∃ item, (x.1, item) ∈ wave ∧ x.2.label = waveItemLabel item := by
  rcases mem_accountOf.mp hx with hfailed | ⟨position, entry, hentry, hresult⟩
  · exact ⟨_, mem_failedOf.mp hfailed, rfl⟩
  · have hlt : position < (signedOf wave).length := (List.getElem?_eq_some_iff.mp hentry).1
    refine ⟨_, mem_signedOf.mp (mem_of_getElem? hentry), ?_⟩
    rw [hresult, hjudge position entry hlt]
    rfl

section

variable (hwave : ∀ x ∈ wave, WellFormed x.2)

include hwave

theorem failed_of_mem_failedOf (hx : x ∈ failedOf wave) :
    ¬ (x.2.outcome = .published ∨ x.2.outcome.isRejection = true) := by
  obtain ⟨message, hmessage⟩ := hwave _ (mem_failedOf.mp hx)
  rw [hmessage]
  rintro (hpublished | hrejected)
  · cases hpublished
  · cases hrejected

theorem waveAccount_failed (message : String) : WaveAccount wave ((wave.map Prod.snd).filterMap failedResult? ++
        ((wave.map Prod.snd).filterMap asSigned?).map (failedPublish message))
      none (accountOf wave fun _ => failedPublish message) where
  results := by
    rw [map_snd_accountOf, ← map_eq_mapIdx]
  tags := map_fst_accountOf wave _
  label := fun x hx => label_accountOf (fun _ _ _ => rfl) hx
  sent := by
    intro x hx hsent
    rcases mem_accountOf.mp hx with hfailed | ⟨position, entry, -, hresult⟩
    · exact absurd hsent (failed_of_mem_failedOf hwave hfailed)
    · rw [hresult] at hsent
      rcases hsent with hpublished | hrejected
      · cases hpublished
      · cases hrejected
  judged := nofun
  aligned := nofun
  own := nofun

theorem waveAccount_sent {outcome : PostOutcome} (haligned : (⟨signedOf wave, array, outcome⟩ : Post τ).Aligned)
    (hjudge : Judges judge outcome (signedOf wave).length) : WaveAccount wave
      ((wave.map Prod.snd).filterMap failedResult? ++ ((wave.map Prod.snd).filterMap asSigned?).mapIdx judge)
      (some ⟨signedOf wave, array, outcome⟩) (accountOf wave judge) where
  results := map_snd_accountOf wave judge
  tags := map_fst_accountOf wave judge
  label := fun x hx => label_accountOf (fun position entry hlt => (hjudge position entry hlt).1) hx
  sent := by
    intro x hx hsent
    rcases mem_accountOf.mp hx with hfailed | ⟨position, entry, hentry, -⟩
    · exact absurd hsent (failed_of_mem_failedOf hwave hfailed)
    · exact ⟨_, rfl, position, entry, hentry⟩
  judged := by
    intro p hp t position hholds
    obtain rfl := Option.mem_some_iff.mp hp
    obtain ⟨entry, hentry⟩ := hholds
    have hlt : position < (signedOf wave).length := (List.getElem?_eq_some_iff.mp hentry).1
    obtain ⟨-, hrejected, hpublished⟩ := hjudge position entry hlt
    refine ⟨judge position entry, mem_accountOf.mpr (.inr ⟨position, entry, hentry, rfl⟩), ?_, hrejected⟩
    rw [hpublished, haligned.length_eq]
    rfl
  aligned := by
    intro p hp
    obtain rfl := Option.mem_some_iff.mp hp
    exact haligned
  own := by
    intro p hp x hx
    obtain rfl := Option.mem_some_iff.mp hp
    exact mem_signedOf.mp hx

end

theorem forall₂_flatMap_items {entries : List (τ × WaveEntry)}
    (h : ∀ x ∈ entries, ∃ item, x.2.attestation.items = [item]) :
    List.Forall₂ (fun x item => x.2.attestation.items = [item]) entries
      ((entries.map Prod.snd).flatMap fun entry => entry.attestation.items) := by
  induction entries with
  | nil => exact .nil
  | cons x entries ih =>
    obtain ⟨⟨item, hitem⟩, hentries⟩ := forall_mem_cons.mp h
    rw [map_cons, flatMap_cons, hitem]
    exact .cons hitem (ih hentries)

theorem planWave_eq_nothing {cfg : PublishConfig} {now : ℕ} (h : planWave cfg now signed = .nothing) : signed = [] := by
  cases signed with
  | nil => rfl
  | cons first rest =>
    rw [planWave] at h
    split at h
    · cases h
    · split at h <;> cases h

theorem planWave_eq_post {cfg : PublishConfig} {now : ℕ} (h : planWave cfg now signed = .post array) :
    signed ≠ [] ∧ array.items = signed.flatMap fun entry => entry.attestation.items := by
  cases signed with
  | nil => cases h
  | cons first rest =>
    rw [planWave] at h
    split at h
    · cases h
    · next hhomogeneous =>
      split at h
      · cases h
      · cases h
        exact ⟨cons_ne_nil _ _, mergeWave_items (by simpa using hhomogeneous)⟩

/-- Whatever the shape of a wave, the time it is published at and the outcome of its POST, every item of it has one
result: published or rejected as the report says of its own position in the array that was sent, failed otherwise. -/
theorem publishWave_spec (cfg : PublishConfig) (now : ℕ) (outcome : PostOutcome) (hwave : ∀ x ∈ wave, WellFormed x.2) :
    ∃ account, WaveAccount wave (publishWave cfg now outcome (wave.map Prod.snd)) (wavePost cfg now outcome wave)
      account := by
  have hsigned := map_snd_signedOf wave
  unfold publishWave wavePost
  dsimp only
  rw [hsigned]
  cases hplan : planWave cfg now ((wave.map Prod.snd).filterMap asSigned?) with
  | nothing =>
    have haccount := waveAccount_failed hwave ""
    rw [planWave_eq_nothing hplan, map_nil, append_nil] at haccount
    exact ⟨_, haccount⟩
  | refuse message => exact ⟨_, waveAccount_failed hwave message⟩
  | post array =>
    obtain ⟨hne, hitems⟩ := planWave_eq_post hplan
    have hsingle : ∀ x ∈ signedOf wave, ∃ item, x.2.attestation.items = [item] := fun x hx =>
      hwave _ (mem_signedOf.mp hx)
    have haligned : (⟨signedOf wave, array, outcome⟩ : Post τ).Aligned := by
      show List.Forall₂ _ (signedOf wave) array.items
      rw [hitems, ← hsigned]
      exact forall₂_flatMap_items hsingle
    have hlen : array.items.length = ((wave.map Prod.snd).filterMap asSigned?).length := by
      rw [← hsigned, length_map]
      exact haligned.length_eq.symm
    obtain ⟨judge, hconclude, hjudge⟩ := concludeWave_eq cfg now hlen hne outcome
    rw [← hsigned, length_map] at hjudge
    have haccount := waveAccount_sent hwave haligned hjudge
    rw [← hconclude] at haccount
    exact ⟨_, haccount⟩

end

/-- Of two entries the report blames the second, twice; the duty that failed before is not in the array. -/
example :
    let entry (index : String) (item : LegacyAttestation) : WaveEntry := ⟨⟨index, "", 7⟩, .preElectra [item]⟩
    let item : LegacyAttestation := ⟨"", ⟨"", "", "", ⟨"", ""⟩, ⟨"", ""⟩⟩, ""⟩
    publishWave ⟨100, 10, 1000, id⟩ 0 (.answered (.ok (none, .partialFailure [⟨1, "late"⟩, ⟨1, "unknown"⟩])))
        [.ok (entry "4" item), .error ⟨"5", 7, .failed "no key"⟩, .ok (entry "6" item)] =
      [⟨"5", 7, .failed "no key"⟩, ⟨"4", 7, .published⟩, ⟨"6", 7, .rejectedByBeaconNode none "unknown"⟩] := by
  decide

end Rvc.Orchestrator.Attestation
