import Rvc.BnManager.Broadcast
import Rvc.Doppelganger.ForwardWindow

/-!
# Observing an epoch

`LivenessObservationLoop::observe_epoch` asks every beacon node for the liveness of the registered indices,
translates the merged answer back to public keys and feeds it to the machine. A single node that reports a
pending validator live is enough for `Detected`, whatever the others answer, and silence is never recorded
as an observation.
-/

namespace Rvc.Doppelganger

open Rvc.Lib Rvc.BnManager List BroadcastResult AList

/-! ### The index registry -/

/-- `PubkeyIndexRegistry`. The reverse map only has indices that the forward map still gives. -/
structure PubkeyIndexRegistry where
  byPubkey : Table PublicKey String
  byIndex : Table String String
  agree : ∀ index bare, byIndex.lookup index = some bare →
    ∃ pubkey, bare = pubkeyHex pubkey ∧ byPubkey.lookup pubkey = some index

namespace PubkeyIndexRegistry

def new : PubkeyIndexRegistry := ⟨∅, ∅, by simp⟩

section

variable (r : PubkeyIndexRegistry) (pubkey : PublicKey) (index : String)

/-- The reverse map without the stale entry of a public key that moves to `index`. -/
def dropStale : Table String String :=
  match r.byPubkey.lookup pubkey with
  | some oldIndex => if oldIndex ≠ index then r.byIndex.erase oldIndex else r.byIndex
  | none => r.byIndex

theorem dropStale_lookup {r : PubkeyIndexRegistry} {pubkey : PublicKey} {index other bare : String}
    (hother : other ≠ index) (h : (r.dropStale pubkey index).lookup other = some bare) :
    r.byIndex.lookup other = some bare ∧ r.byPubkey.lookup pubkey ≠ some other := by
  unfold dropStale at h
  cases hold : r.byPubkey.lookup pubkey with
  | none =>
    rw [hold] at h
    exact ⟨h, by simp⟩
  | some oldIndex =>
    rw [hold] at h
    by_cases hne : oldIndex = index
    · simp only [hne, ne_eq, not_true_eq_false, if_false] at h
      exact ⟨h, fun heq => hother ((Option.some.inj heq).symm.trans hne)⟩
    · simp only [ne_eq, hne, not_false_eq_true, if_true] at h
      by_cases hsame : other = oldIndex
      · rw [hsame, lookup_erase] at h
        cases h
      · rw [lookup_erase_ne hsame] at h
        exact ⟨h, fun heq => hsame (Option.some.inj heq).symm⟩

def insert : PubkeyIndexRegistry where
  byPubkey := r.byPubkey.insert pubkey index
  byIndex := (r.dropStale pubkey index).insert index (pubkeyHex pubkey)
  agree := by
    intro other bare h
    by_cases hother : other = index
    · rw [hother, AList.lookup_insert] at h
      exact ⟨pubkey, (Option.some.inj h).symm, by rw [hother, AList.lookup_insert]⟩
    · rw [AList.lookup_insert_ne hother] at h
      obtain ⟨hold, hnot⟩ := dropStale_lookup hother h
      obtain ⟨pubkey', hbare, hindex⟩ := r.agree other bare hold
      have hne : pubkey' ≠ pubkey := fun heq => hnot (heq ▸ hindex)
      exact ⟨pubkey', hbare, by rw [AList.lookup_insert_ne hne, hindex]⟩

end

theorem indexOf_of_byIndex (r : PubkeyIndexRegistry) {index : String} {pubkey : PublicKey}
    (h : r.byIndex.lookup index = some (pubkeyHex pubkey)) : r.byPubkey.lookup pubkey = some index := by
  obtain ⟨pubkey', hbare, hindex⟩ := r.agree index _ h
  rwa [← pubkeyHex_injective hbare] at hindex

end PubkeyIndexRegistry

/-! ### The loop body -/

/-- Numeric index to public key; an index the registry does not know is dropped. -/
def translate (r : PubkeyIndexRegistry) (data : List ValidatorLiveness) : List ValidatorLivenessData :=
  data.filterMap fun v => (r.byIndex.lookup v.index).map fun bare => ⟨bare, v.isLive⟩

/-- `observe_epoch`; `clients` carry what each node answers. -/
def observeEpoch (r : PubkeyIndexRegistry) (clients : List (Client (List ValidatorLiveness)))
    (m : ForwardWindowMachine) (epoch : Nat) : Except String Bool × ForwardWindowMachine :=
  if r.byIndex.entries.isEmpty then
    (.ok false, m)
  else
    match postValidatorLivenessMerged clients with
    | .error e => (.error e.toString, m)
    | .ok data =>
        match m.observeLiveness epoch (translate r data) with
        | (.ok (), m) => (.ok true, m)
        | (.error (.incompleteLiveness _ _), m) => (.ok false, m)

def ForwardWindowMachine.observedEpochs (m : ForwardWindowMachine) (pubkey : PublicKey) : Finset Nat :=
  match m.states.lookup (pubkeyHex pubkey) with
  | some (.pending _ _ observed) => observed
  | _ => ∅

section

variable {r : PubkeyIndexRegistry} {clients : List (Client (List ValidatorLiveness))}
  {m : ForwardWindowMachine} {epoch : Nat} {pubkey : PublicKey}

def asked (clients : List (Client (List ValidatorLiveness))) : List (Client (List ValidatorLiveness)) :=
  roleMatching clients .all

theorem postValidatorLivenessMerged_ok {client : Client (List ValidatorLiveness)}
    (hclient : client ∈ asked clients) {answer : List ValidatorLiveness} (hanswer : client.answer = .ok answer) :
    ∃ data, postValidatorLivenessMerged clients = .ok data ∧ ∀ entry, entry ∈ data ↔
      (∃ c ∈ asked clients, ∃ a, c.answer = .ok a ∧ ∃ other ∈ a, other.index = entry.index) ∧
      (entry.isLive = true ↔ ∃ c ∈ asked clients, ∃ a, c.answer = .ok a ∧
        ∃ other ∈ a, other.index = entry.index ∧ other.isLive = true) := by
  have hany : (broadcastInner clients .all).anySuccess = true := by
    refine any_eq_true.mpr ⟨⟨client.endpoint, client.answer⟩, mem_map_of_mem hclient, ?_⟩
    rw [hanswer]
    rfl
  have hne : (broadcastInner clients .all).outcomes.isEmpty = false := by
    rw [isEmpty_eq_false_iff]
    exact ne_nil_of_mem (mem_map_of_mem hclient)
  obtain ⟨data, hdata, hmem⟩ := mem_mergeLivenessBroadcast hany
  refine ⟨data, by rw [postValidatorLivenessMerged]; simp only [hne, hdata]; rfl, fun entry => ?_⟩
  have hflat : ∀ P : List ValidatorLiveness → Prop, (∃ answer ∈ (broadcastInner clients .all).answers, P answer) ↔
        ∃ c ∈ asked clients, ∃ a, c.answer = .ok a ∧ P a := by
    intro P
    constructor
    · rintro ⟨answer, hanswer, hP⟩
      obtain ⟨c, hc, hok⟩ := mem_answers.mp hanswer
      exact ⟨c, hc, answer, hok, hP⟩
    · rintro ⟨c, hc, a, hok, hP⟩
      exact ⟨a, mem_answers.mpr ⟨c, hc, hok⟩, hP⟩
  rw [hmem, hflat, hflat]

theorem postValidatorLivenessMerged_error (h : ∀ client ∈ asked clients, client.answer.isOk = false) :
    ∃ e, postValidatorLivenessMerged clients = .error e := by
  unfold postValidatorLivenessMerged
  dsimp only
  split
  · exact ⟨_, rfl⟩
  · have hnone : (broadcastInner clients .all).anySuccess = false := by
      rw [anySuccess, any_eq_false]
      intro outcome houtcome
      obtain ⟨client, hclient, rfl⟩ := mem_map.mp houtcome
      simp [h client hclient]
    obtain ⟨e, he⟩ := intoResult_error hnone
    exact ⟨e, by simp [mergeLivenessBroadcast, hnone, he]⟩

theorem observeEpoch_cases (r : PubkeyIndexRegistry) (clients : List (Client (List ValidatorLiveness)))
    (m : ForwardWindowMachine) (epoch : Nat) :
    (observeEpoch r clients m epoch).2 = m ∨ ∃ data, postValidatorLivenessMerged clients = .ok data ∧
      (observeEpoch r clients m epoch).2 = (m.observeLiveness epoch (translate r data)).2 := by
  unfold observeEpoch
  split
  · exact .inl rfl
  · cases hdata : postValidatorLivenessMerged clients with
    | error e => exact .inl rfl
    | ok data =>
      refine .inr ⟨data, rfl, ?_⟩
      simp only
      split <;> next heq => rw [heq]

theorem observeEpoch_eq (hindex : ∃ index bare, r.byIndex.lookup index = some bare)
    {data : List ValidatorLiveness} (hdata : postValidatorLivenessMerged clients = .ok data) :
    (observeEpoch r clients m epoch).2 = (m.observeLiveness epoch (translate r data)).2 := by
  obtain ⟨index, bare, hlookup⟩ := hindex
  have hne : r.byIndex.entries.isEmpty = false := by
    rw [isEmpty_eq_false_iff]
    exact ne_nil_of_mem (mem_lookup_iff.mp hlookup)
  unfold observeEpoch
  rw [hne, hdata]
  simp only [Bool.false_eq_true, if_false]
  split <;> next heq => rw [heq]

theorem mem_translate {data : List ValidatorLiveness} {sample : ValidatorLivenessData} : sample ∈ translate r data ↔
      ∃ entry ∈ data, r.byIndex.lookup entry.index = some sample.index ∧ entry.isLive = sample.isLive := by
  unfold translate
  simp only [mem_filterMap, Option.map_eq_some_iff]
  refine exists_congr fun entry => and_congr_right fun _ => ?_
  constructor
  · rintro ⟨bare, hbare, rfl⟩
    exact ⟨hbare, rfl⟩
  · rintro ⟨hbare, hlive⟩
    exact ⟨sample.index, hbare, by rw [hlive]⟩

open ForwardWindowMachine

theorem observeLiveness_detects {samples : List ValidatorLivenessData} {state : ValidatorState}
    (hstate : m.states.lookup (pubkeyHex pubkey) = some state) (hwindow : inWindow epoch state = true)
    {sample : ValidatorLivenessData} (hsample : sample ∈ samples) (hindex : sample.index = pubkeyHex pubkey)
    (hlive : sample.isLive = true) : (m.observeLiveness epoch samples).2.status pubkey = .detected := by
  have hanswer : (response samples).lookup (pubkeyHex pubkey) = some true := by
    cases h : (response samples).lookup (pubkeyHex pubkey) with
    | none => exact absurd hindex (no_sample_of_response h sample hsample)
    | some live =>
      cases live with
      | true => rfl
      | false =>
        have hquiet := (samples_of_response h).2 sample hsample hindex
        rw [hlive] at hquiet
        cases hquiet
  have hstep := lookup_step m pubkey (.observeLiveness epoch samples)
  simp only [step, validatorStep, hstate, Option.map_some, hwindow, if_true,
    hanswer, answerState, Option.elim_some, observeState] at hstep
  rw [status, hstep]
  rfl

theorem observeLiveness_observed {samples : List ValidatorLivenessData} {e : Nat}
    (hnew : e ∈ (m.observeLiveness epoch samples).2.observedEpochs pubkey)
    (hold : e ∉ m.observedEpochs pubkey) : ∃ sample ∈ samples, sample.index = pubkeyHex pubkey := by
  have hstep := lookup_step m pubkey (.observeLiveness epoch samples)
  simp only [step, validatorStep] at hstep
  -- without an answer the state stays as it is
  have hsome : (response samples).lookup (pubkeyHex pubkey) ≠ none := by
    intro hnone
    simp only [hnone, answerState, Option.elim_none, ite_self, Option.map_id'] at hstep
    rw [observedEpochs, hstep] at hnew
    exact hold hnew
  by_contra hno
  push Not at hno
  apply hsome
  rw [lookup_response, filter_eq_nil_iff.mpr (by simpa using hno)]

end

/-- **Liveness evidence is never suppressed.** One answering node that reports a pending validator of the
epoch live makes it `Detected`; if every node fails the machine stays as it is; and an epoch is recorded as
observed for a validator only if some node answered for the index it is registered under. -/
theorem observeEpoch_keeps_evidence (r : PubkeyIndexRegistry)
    (clients : List (Client (List ValidatorLiveness))) (m : ForwardWindowMachine) (epoch : Nat) :
    (∀ client ∈ asked clients, ∀ answer, client.answer = .ok answer → ∀ entry ∈ answer,
      entry.isLive = true → ∀ pubkey startEpoch endEpoch observed,
      r.byIndex.lookup entry.index = some (pubkeyHex pubkey) →
      m.states.lookup (pubkeyHex pubkey) = some (.pending startEpoch endEpoch observed) →
      startEpoch ≤ epoch → epoch ≤ endEpoch → (observeEpoch r clients m epoch).2.status pubkey = .detected) ∧
    ((∀ client ∈ asked clients, client.answer.isOk = false) → (observeEpoch r clients m epoch).2 = m) ∧
    ∀ pubkey e, e ∈ (observeEpoch r clients m epoch).2.observedEpochs pubkey →
      e ∉ m.observedEpochs pubkey → ∃ client ∈ asked clients, ∃ answer, client.answer = .ok answer ∧
        ∃ entry ∈ answer, r.byPubkey.lookup pubkey = some entry.index := by
  refine ⟨?_, ?_, ?_⟩
  · intro client hclient answer hanswer entry hentry hlive pubkey startEpoch endEpoch observed hindex hstate hstart hend
    obtain ⟨data, hdata, hmem⟩ := postValidatorLivenessMerged_ok hclient hanswer
    have hmerged : (⟨entry.index, true⟩ : ValidatorLiveness) ∈ data := (hmem _).mpr
      ⟨⟨client, hclient, answer, hanswer, entry, hentry, rfl⟩,
        fun _ => ⟨client, hclient, answer, hanswer, entry, hentry, rfl, hlive⟩, fun _ => rfl⟩
    have hsample : (⟨pubkeyHex pubkey, true⟩ : ValidatorLivenessData) ∈ translate r data :=
      mem_translate.mpr ⟨_, hmerged, hindex, rfl⟩
    rw [observeEpoch_eq ⟨_, _, hindex⟩ hdata]
    exact observeLiveness_detects hstate (by simp [inWindow, hstart, hend]) hsample rfl rfl
  · intro hfail
    obtain ⟨e, he⟩ := postValidatorLivenessMerged_error hfail
    rcases observeEpoch_cases r clients m epoch with hsame | ⟨data, hdata, -⟩
    · exact hsame
    · rw [he] at hdata
      cases hdata
  · intro pubkey e hnew hold
    rcases observeEpoch_cases r clients m epoch with hsame | ⟨data, hdata, heq⟩
    · rw [hsame] at hnew
      exact absurd hnew hold
    · rw [heq] at hnew
      obtain ⟨sample, hsample, hkey⟩ := observeLiveness_observed hnew hold
      obtain ⟨entry, hentry, hindex, -⟩ := mem_translate.mp hsample
      have hany : ∃ client ∈ asked clients, ∃ answer, client.answer = .ok answer := by
        by_contra hnone
        push Not at hnone
        obtain ⟨err, herr⟩ := postValidatorLivenessMerged_error fun client hclient => by
          cases hans : client.answer with
          | error => rfl
          | ok answer => exact absurd hans (hnone client hclient answer)
        rw [herr] at hdata
        cases hdata
      obtain ⟨client, hclient, answer, hanswer⟩ := hany
      obtain ⟨data', hdata', hmem⟩ := postValidatorLivenessMerged_ok hclient hanswer
      cases hdata.symm.trans hdata'
      obtain ⟨c, hc, a, ha, other, hother, hsame⟩ := ((hmem entry).mp hentry).1
      refine ⟨c, hc, a, ha, other, hother, ?_⟩
      rw [hsame]
      exact r.indexOf_of_byIndex (hkey ▸ hindex)

def watchedPubkey : PublicKey := ⟨List.replicate 48 7, rfl⟩

/-- The first node answers not live, the second fails, the third says both. -/
def disagreeingNodes : List (Client (List ValidatorLiveness)) :=
  [⟨"a", {.all}, .ok [⟨"5", false⟩, ⟨"9", true⟩]⟩, ⟨"b", {.all}, .error .timeout⟩,
    ⟨"c", {.all}, .ok [⟨"5", true⟩, ⟨"5", false⟩]⟩]

theorem observeEpoch_keeps_evidence_disagreeing :
    (observeEpoch (PubkeyIndexRegistry.new.insert watchedPubkey "5") disagreeingNodes
      ((ForwardWindowMachine.new 2 (by decide)).registerForImport watchedPubkey 10) 11).2.status watchedPubkey =
        .detected :=
  (observeEpoch_keeps_evidence _ disagreeingNodes _ 11).1 ⟨"c", {.all}, .ok [⟨"5", true⟩, ⟨"5", false⟩]⟩
    (by simp [asked, roleMatching, BnRole.matchesRole, disagreeingNodes]) _ rfl ⟨"5", true⟩ (by simp) rfl
    watchedPubkey 10 12 ∅ (lookup_insert _) (lookup_insert _) (by decide) (by decide)

end Rvc.Doppelganger
