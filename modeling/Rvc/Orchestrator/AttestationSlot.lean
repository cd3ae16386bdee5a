import Mathlib.Data.List.Nodup
import Rvc.Lib.Settles
import Rvc.Orchestrator.Wave

/-!
# The attestations of a slot

`process_slot_until` from the point where the enabled duties of the slot are known. A stream pulls them until the slot
ends and signs so many at a time, those that are signed leave it in any order and in chunks of any size, and so many
chunks are published at a time. `SlotMove` is a step of it: the order of the signatures, the cuts between the waves, the
time of the slot end, the time of each POST and its outcome are all left open.

Whatever they are, the call returns, with one result for each duty that was pulled and a count of the others; and a
result says that an attestation was published or rejected exactly when the report of the beacon node says so of the
position it had in the array that was sent (`process_slot_until_accounts`).
-/

namespace Rvc.Orchestrator.Attestation

open Rvc.Lib Rvc.EthTypes List Option

/-! ### The pipeline -/

structure DispatchLimits where
  concurrency : ℕ
  publishConcurrency : ℕ
  concurrency_pos : 0 < concurrency
  publishConcurrency_pos : 0 < publishConcurrency

inductive DispatchLimitsError where
  | concurrency (concurrency : ℕ)
  | publishConcurrency (publishConcurrency : ℕ)
  deriving DecidableEq

namespace DispatchLimits

def defaultConcurrency : ℕ := 32

def defaultPublishConcurrency : ℕ := 2

def validated (concurrency publishConcurrency : ℕ) : Except DispatchLimitsError DispatchLimits :=
  if hconcurrency : concurrency < 1 then .error (.concurrency concurrency)
  else if hpublish : publishConcurrency < 1 then .error (.publishConcurrency publishConcurrency)
  else .ok ⟨concurrency, publishConcurrency, Nat.not_lt.mp hconcurrency, Nat.not_lt.mp hpublish⟩

theorem validated_eq_ok_iff {concurrency publishConcurrency : ℕ} {limits : DispatchLimits} :
    validated concurrency publishConcurrency = .ok limits ↔
      limits.concurrency = concurrency ∧ limits.publishConcurrency = publishConcurrency := by
  unfold validated
  constructor
  · intro h
    split_ifs at h
    cases h
    exact ⟨rfl, rfl⟩
  · rintro ⟨rfl, rfl⟩
    rw [dif_neg (Nat.not_lt.mpr limits.concurrency_pos), dif_neg (Nat.not_lt.mpr limits.publishConcurrency_pos)]

example : (validated defaultConcurrency defaultPublishConcurrency).isOk = true := rfl

end DispatchLimits

structure SlotConfig where
  slot : ℕ
  forkSchedule : ForkSchedule
  memo : AttestationDataMemo
  publish : PublishConfig
  limits : DispatchLimits

/-- `OrchestratorError`, as far as it is returned once the duties are known. -/
inductive OrchestratorError where
  | noDutiesForSlot (slot : ℕ)
  deriving DecidableEq

def recordDrops (counter : UInt64) (n : ℕ) : UInt64 := if 0 < n then counter + UInt64.ofNat n else counter

/-- A duty and its place in the list of duties, which tells duties apart. -/
abbrev DutyAt := TypedAttesterDuty × ℕ

structure SlotState where
  waiting : List DutyAt
  ended : Bool
  signing : List DutyAt
  chunk : List (DutyAt × WaveItem)
  publishing : List (List (DutyAt × WaveItem))
  results : List AttestationResult
  posts : List (Post DutyAt)
  slotEndDrops : UInt64
  returned : Option (Except OrchestratorError (List AttestationResult))

def SlotState.start (duties : List TypedAttesterDuty) (drops : UInt64) : SlotState where
  waiting := duties.zipIdx
  ended := false
  signing := []
  chunk := []
  publishing := []
  results := []
  posts := []
  slotEndDrops := drops
  returned := none

inductive SlotMove (cfg : SlotConfig) (duties : List TypedAttesterDuty) (s : SlotState) : SlotState → Prop
  | noDuties (hduties : duties = []) :
      SlotMove cfg duties s { s with returned := some (.error (.noDutiesForSlot cfg.slot)) }
  | pull {duty : DutyAt} {rest : List DutyAt} (hwaiting : s.waiting = duty :: rest)
      (hended : s.ended = false) (hroom : s.signing.length < cfg.limits.concurrency) :
      SlotMove cfg duties s { s with waiting := rest, signing := s.signing ++ [duty] }
  | slotEnd (hwaiting : s.waiting ≠ []) (hended : s.ended = false) : SlotMove cfg duties s { s with ended := true }
  | signed {before after : List DutyAt} {duty : DutyAt}
      (hsigning : s.signing = before ++ duty :: after) (hroom : s.chunk.length < cfg.limits.concurrency)
      (answers : AttestAnswers) :
      SlotMove cfg duties s { s with
        signing := before ++ after
        chunk := s.chunk ++ [(duty, signOne cfg.forkSchedule cfg.memo duty.1 answers)] }
  | cut (hchunk : s.chunk ≠ []) (hroom : s.publishing.length < cfg.limits.publishConcurrency) :
      SlotMove cfg duties s { s with chunk := [], publishing := s.publishing ++ [s.chunk] }
  | publish {before after : List (List (DutyAt × WaveItem))} {wave : List (DutyAt × WaveItem)}
      (hpublishing : s.publishing = before ++ wave :: after) (now : ℕ) (outcome : PostOutcome) :
      SlotMove cfg duties s { s with
        publishing := before ++ after
        results := s.results ++ publishWave cfg.publish now outcome (wave.map Prod.snd)
        posts := s.posts ++ (wavePost cfg.publish now outcome wave).toList }
  | finish (hduties : duties ≠ []) (hwaiting : s.waiting = [] ∨ s.ended = true)
      (hsigning : s.signing = []) (hchunk : s.chunk = []) (hpublishing : s.publishing = []) :
      SlotMove cfg duties s { s with
        returned := some (.ok s.results)
        slotEndDrops := recordDrops s.slotEndDrops (duties.length - s.results.length) }

/-- A step of the call, which makes none after it has returned. -/
def SlotStep (cfg : SlotConfig) (duties : List TypedAttesterDuty) (s t : SlotState) : Prop :=
  s.returned = none ∧ SlotMove cfg duties s t

/-! ### Every call returns -/

def SlotState.todo (s : SlotState) : ℕ :=
  4 * s.waiting.length + 3 * s.signing.length + 2 * s.chunk.length + s.publishing.length +
    (if s.ended then 0 else 1) + (if s.returned.isSome then 0 else 1)

open SlotState

theorem SlotStep.todo_lt {cfg : SlotConfig} {duties : List TypedAttesterDuty} {s t : SlotState}
    (h : SlotStep cfg duties s t) : t.todo < s.todo := by
  obtain ⟨hopen, hmove⟩ := h
  cases hmove with
  | noDuties => simp [todo, hopen]
  | pull hwaiting =>
    simp only [todo, hwaiting, length_append, length_cons, length_nil]
    omega
  | slotEnd hwaiting hended => simp [todo, hended]
  | signed hsigning =>
    simp only [todo, hsigning, length_append, length_cons, length_nil]
    omega
  | cut hchunk =>
    have hpos : 0 < s.chunk.length := length_pos_of_ne_nil hchunk
    simp only [todo, length_append, length_cons, length_nil]
    omega
  | publish hpublishing =>
    simp only [todo, hpublishing, length_append, length_cons]
    omega
  | finish => simp [todo, hopen]

/-- A call that has not returned has a step to make: it publishes what is there to publish, then cuts, signs and
pulls. -/
theorem exists_slotMove (cfg : SlotConfig) (duties : List TypedAttesterDuty) (s : SlotState) :
    ∃ t, SlotMove cfg duties s t := by
  by_cases hduties : duties = []
  · exact ⟨_, .noDuties hduties⟩
  cases hpublishing : s.publishing with
  | cons wave waves =>
    have hfirst : s.publishing = [] ++ wave :: waves := hpublishing
    exact ⟨_, .publish hfirst 0 .elapsed⟩
  | nil =>
    by_cases hchunk : s.chunk = []
    · cases hsigning : s.signing with
      | cons duty rest =>
        have hfirst : s.signing = [] ++ duty :: rest := hsigning
        have hroom : s.chunk.length < cfg.limits.concurrency := by simpa [hchunk] using cfg.limits.concurrency_pos
        exact ⟨_, .signed hfirst hroom ⟨false, .ok (), .ok (), .ok (), .ok []⟩⟩
      | nil =>
        have hroom : s.signing.length < cfg.limits.concurrency := by simpa [hsigning] using cfg.limits.concurrency_pos
        cases hwaiting : s.waiting with
        | nil => exact ⟨_, .finish hduties (.inl hwaiting) hsigning hchunk hpublishing⟩
        | cons duty rest =>
          cases hended : s.ended with
          | true => exact ⟨_, .finish hduties (.inr hended) hsigning hchunk hpublishing⟩
          | false => exact ⟨_, .pull hwaiting hended hroom⟩
    · have hroom : s.publishing.length < cfg.limits.publishConcurrency := by
        simpa [hpublishing] using cfg.limits.publishConcurrency_pos
      exact ⟨_, .cut hchunk hroom⟩

/-! ### Every duty is accounted for -/

def SlotState.pending (s : SlotState) : List DutyAt :=
  s.publishing.flatten.map Prod.fst ++ (s.chunk.map Prod.fst ++ (s.signing ++ s.waiting))

/-- `account` gives every duty that is not pending its result, as the posts have it. -/
structure SlotInv (cfg : SlotConfig) (duties : List TypedAttesterDuty) (s : SlotState)
    (account : List (DutyAt × AttestationResult)) : Prop where
  results : account.map Prod.snd = s.results
  once : (account.map Prod.fst ++ s.pending).Perm duties.zipIdx
  items : ∀ x ∈ s.publishing.flatten ++ s.chunk, ∃ answers, x.2 = signOne cfg.forkSchedule cfg.memo x.1.1 answers
  label : ∀ x ∈ account, x.2.label = (x.1.1.rawValidatorIndex, x.1.1.slot)
  sent : ∀ x ∈ account, x.2.outcome = .published ∨ x.2.outcome.isRejection = true →
    ∃ p ∈ s.posts, ∃ position, p.Holds x.1 position
  judged : ∀ p ∈ s.posts, ∀ t position, p.Holds t position → ∃ result, (t, result) ∈ account ∧
    (result.outcome = .published ↔ p.Clears position) ∧ (result.outcome.isRejection = true ↔ p.Blames position)
  aligned : ∀ p ∈ s.posts, p.Aligned
  own : ∀ p ∈ s.posts, ∀ x ∈ p.entries, ∃ answers, signOne cfg.forkSchedule cfg.memo x.1.1 answers = .ok x.2

structure SlotReturn (cfg : SlotConfig) (duties : List TypedAttesterDuty) (drops : UInt64) (s : SlotState) : Prop where
  isOpen : s.returned = none → s.slotEndDrops = drops
  closed : ∀ value, s.returned = some value →
    value = (if duties = [] then .error (.noDutiesForSlot cfg.slot) else .ok s.results) ∧
      s.pending = s.waiting ∧ s.slotEndDrops = drops + UInt64.ofNat s.waiting.length

namespace SlotInv

variable {cfg : SlotConfig} {duties : List TypedAttesterDuty} {s : SlotState}
  {account : List (DutyAt × AttestationResult)}

theorem start (cfg : SlotConfig) (duties : List TypedAttesterDuty) (drops : UInt64) :
    SlotInv cfg duties (.start duties drops) [] where
  results := rfl
  once := .refl _
  items := nofun
  label := nofun
  sent := nofun
  judged := nofun
  aligned := nofun
  own := nofun

section

variable (h : SlotInv cfg duties s account)

include h

theorem moved {t : SlotState} (hresults : t.results = s.results)
    (hposts : t.posts = s.posts) (hpending : t.pending.Perm s.pending) (hitems : ∀ x ∈ t.publishing.flatten ++ t.chunk,
      ∃ answers, x.2 = signOne cfg.forkSchedule cfg.memo x.1.1 answers) : SlotInv cfg duties t account where
  results := h.results.trans hresults.symm
  once := (hpending.append_left _).trans h.once
  items := hitems
  label := h.label
  sent := hposts ▸ h.sent
  judged := hposts ▸ h.judged
  aligned := hposts ▸ h.aligned
  own := hposts ▸ h.own

theorem signed {before after : List DutyAt} {duty : DutyAt}
    (hsigning : s.signing = before ++ duty :: after) (answers : AttestAnswers) :
    SlotInv cfg duties { s with
      signing := before ++ after
      chunk := s.chunk ++ [(duty, signOne cfg.forkSchedule cfg.memo duty.1 answers)] } account := by
  refine h.moved rfl rfl ?_ ?_
  · simp only [pending, hsigning, map_append, map_cons, map_nil, append_assoc, singleton_append]
    exact ((perm_middle.symm).append_left _).append_left _
  · intro x hx
    simp only [mem_append, mem_singleton] at hx
    rcases hx with hx | hx | rfl
    · exact h.items x (mem_append_left _ hx)
    · exact h.items x (mem_append_right _ hx)
    · exact ⟨answers, rfl⟩

theorem cut : SlotInv cfg duties { s with chunk := [], publishing := s.publishing ++ [s.chunk] } account := by
  refine h.moved rfl rfl ?_ ?_
  · simp [pending]
  · simpa using h.items

theorem publish {before after : List (List (DutyAt × WaveItem))}
    {wave : List (DutyAt × WaveItem)} (hpublishing : s.publishing = before ++ wave :: after) (now : ℕ)
    (outcome : PostOutcome) :
    ∃ account', SlotInv cfg duties { s with
      publishing := before ++ after
      results := s.results ++ publishWave cfg.publish now outcome (wave.map Prod.snd)
      posts := s.posts ++ (wavePost cfg.publish now outcome wave).toList } account' := by
  have hitems : ∀ x ∈ wave, ∃ answers, x.2 = signOne cfg.forkSchedule cfg.memo x.1.1 answers := by
    intro x hx
    exact h.items x (by simp [hpublishing, hx])
  have hwave : ∀ x ∈ wave, WellFormed x.2 := by
    intro x hx
    obtain ⟨answers, hanswers⟩ := hitems x hx
    rw [hanswers]
    exact signOne_wellFormed _ _ _ _
  obtain ⟨judged, hjudged⟩ := publishWave_spec cfg.publish now outcome hwave
  refine ⟨account ++ judged, ?_, ?_, ?_, ?_, ?_, ?_, ?_, ?_⟩
  · rw [map_append, h.results, hjudged.results]
  · refine List.Perm.trans ?_ h.once
    simp only [pending, hpublishing, map_append, flatten_append, flatten_cons, append_assoc]
    refine List.Perm.append_left _ ?_
    exact (hjudged.tags.append_right _).trans (perm_append_comm_assoc _ _ _)
  · intro x hx
    apply h.items x
    simp only [hpublishing, flatten_append, flatten_cons, mem_append] at hx ⊢
    tauto
  · refine forall_mem_append.mpr ⟨h.label, fun x hx => ?_⟩
    obtain ⟨item, hmem, hlabel⟩ := hjudged.label x hx
    obtain ⟨answers, hanswers⟩ := hitems _ hmem
    rw [hlabel]
    exact (congrArg waveItemLabel hanswers).trans (signOne_label _ _ _ _)
  · intro x hx hsent
    rcases mem_append.mp hx with hold | hnew
    · obtain ⟨p, hp, hholds⟩ := h.sent x hold hsent
      exact ⟨p, mem_append_left _ hp, hholds⟩
    · obtain ⟨p, hp, hholds⟩ := hjudged.sent x hnew hsent
      exact ⟨p, mem_append_right _ (mem_toList.mpr hp), hholds⟩
  · intro p hp t position hholds
    rcases mem_append.mp hp with hold | hnew
    · obtain ⟨result, hmem, hresult⟩ := h.judged p hold t position hholds
      exact ⟨result, mem_append_left _ hmem, hresult⟩
    · obtain ⟨result, hmem, hresult⟩ := hjudged.judged p (mem_toList.mp hnew) t position hholds
      exact ⟨result, mem_append_right _ hmem, hresult⟩
  · exact forall_mem_append.mpr ⟨h.aligned, fun p hp => hjudged.aligned p (mem_toList.mp hp)⟩
  · refine forall_mem_append.mpr ⟨h.own, fun p hp x hx => ?_⟩
    obtain ⟨answers, hanswers⟩ := hitems _ (hjudged.own p (mem_toList.mp hp) x hx)
    exact ⟨answers, hanswers.symm⟩

theorem step {t : SlotState} (hmove : SlotMove cfg duties s t) : ∃ account', SlotInv cfg duties t account' := by
  cases hmove with
  | noDuties => exact ⟨account, h.moved rfl rfl (.refl _) h.items⟩
  | pull hwaiting =>
    refine ⟨account, h.moved rfl rfl ?_ h.items⟩
    simp [pending, hwaiting]
  | slotEnd => exact ⟨account, h.moved rfl rfl (.refl _) h.items⟩
  | signed hsigning _ answers => exact ⟨account, h.signed hsigning answers⟩
  | cut => exact ⟨account, h.cut⟩
  | publish hpublishing now outcome => exact h.publish hpublishing now outcome
  | finish => exact ⟨account, h.moved rfl rfl (.refl _) h.items⟩

theorem length_results : s.results.length + s.pending.length = duties.length := by
  have hlen := h.once.length_eq
  rwa [length_append, length_map, length_zipIdx, ← length_map (f := Prod.snd), h.results] at hlen

theorem unique {t : DutyAt} {r r' : AttestationResult} (hr : (t, r) ∈ account) (hr' : (t, r') ∈ account) : r = r' := by
  have hnodup : (account.map Prod.fst).Nodup := by
    have hplaces : (duties.zipIdx.map Prod.snd).Nodup := by simpa [range_eq_range'] using nodup_range'
    have hall := h.once.nodup_iff.mpr (List.Nodup.of_map _ hplaces)
    exact List.Nodup.of_append_left hall
  exact congrArg Prod.snd (inj_on_of_nodup_map hnodup hr hr' rfl)

end

end SlotInv

theorem recordDrops_eq (counter : UInt64) (n : ℕ) : recordDrops counter n = counter + UInt64.ofNat n := by
  unfold recordDrops
  split
  · rfl
  · next hzero => simp [Nat.eq_zero_of_not_pos hzero]

namespace SlotReturn

variable {cfg : SlotConfig} {duties : List TypedAttesterDuty} {drops : UInt64} {s t : SlotState}

theorem start (cfg : SlotConfig) (duties : List TypedAttesterDuty) (drops : UInt64) :
    SlotReturn cfg duties drops (.start duties drops) where
  isOpen := fun _ => rfl
  closed := nofun

theorem of_open (hopen : t.returned = none) (hdrops : t.slotEndDrops = drops) : SlotReturn cfg duties drops t where
  isOpen := fun _ => hdrops
  closed := by
    intro value hvalue
    rw [hopen] at hvalue
    cases hvalue

theorem step {account : List (DutyAt × AttestationResult)} (hinv : SlotInv cfg duties s account)
    (h : SlotReturn cfg duties drops s) (hstep : SlotStep cfg duties s t) : SlotReturn cfg duties drops t := by
  obtain ⟨hopen, hmove⟩ := hstep
  have hdrops := h.isOpen hopen
  cases hmove with
  | noDuties hduties =>
    have hpending : s.pending = [] := by
      have hperm := hinv.once
      rw [hduties] at hperm
      exact (append_eq_nil_iff.mp hperm.eq_nil).2
    have hwaiting : s.waiting = [] := by
      simp only [pending, append_eq_nil_iff] at hpending
      exact hpending.2.2.2
    refine ⟨nofun, ?_⟩
    rintro value ⟨⟩
    rw [if_pos hduties]
    refine ⟨rfl, hpending.trans hwaiting.symm, ?_⟩
    simp [hwaiting, hdrops]
  | finish hduties hwaiting hsigning hchunk hpublishing =>
    have hpending : s.pending = s.waiting := by
      simp [pending, hsigning, hchunk, hpublishing]
    have hlen := hinv.length_results
    rw [hpending] at hlen
    refine ⟨nofun, ?_⟩
    rintro value ⟨⟩
    rw [if_neg hduties]
    refine ⟨rfl, hpending, ?_⟩
    rw [recordDrops_eq, hdrops, ← hlen, Nat.add_sub_cancel_left]
  | pull | slotEnd | signed | cut | publish => exact of_open hopen hdrops

end SlotReturn

/-- The call has returned: `account` gives results to the duties that were pulled, and `dropped` are the others. -/
structure Accounted (cfg : SlotConfig) (duties : List TypedAttesterDuty) (drops : UInt64) (s : SlotState)
    (account : List (DutyAt × AttestationResult)) (dropped : List DutyAt) : Prop where
  returned : s.returned =
    some (if duties = [] then .error (.noDutiesForSlot cfg.slot) else .ok (account.map Prod.snd))
  once : (account.map Prod.fst ++ dropped).Perm duties.zipIdx
  counted : s.slotEndDrops = drops + UInt64.ofNat dropped.length
  label : ∀ x ∈ account, x.2.label = (x.1.1.rawValidatorIndex, x.1.1.slot)
  published : ∀ x ∈ account, x.2.outcome = .published ↔
    ∃ p ∈ s.posts, ∃ position, p.Holds x.1 position ∧ p.Clears position
  rejected : ∀ x ∈ account, x.2.outcome.isRejection = true ↔
    ∃ p ∈ s.posts, ∃ position, p.Holds x.1 position ∧ p.Blames position
  aligned : ∀ p ∈ s.posts, p.Aligned
  own : ∀ p ∈ s.posts, ∀ x ∈ p.entries, ∃ answers, signOne cfg.forkSchedule cfg.memo x.1.1 answers = .ok x.2

theorem accounted_of_inv {cfg : SlotConfig} {duties : List TypedAttesterDuty} {drops : UInt64} {s : SlotState}
    {account : List (DutyAt × AttestationResult)} (hinv : SlotInv cfg duties s account)
    (hreturn : SlotReturn cfg duties drops s) (hreturned : s.returned ≠ none) :
    Accounted cfg duties drops s account s.waiting := by
  obtain ⟨value, hvalue⟩ := ne_none_iff_exists'.mp hreturned
  obtain ⟨hresult, hpending, hcounted⟩ := hreturn.closed value hvalue
  -- the judgement of the post that holds a duty is that of the duty's result
  have hjudged : ∀ x ∈ account, ∀ p ∈ s.posts, ∀ position, p.Holds x.1 position →
      (x.2.outcome = .published ↔ p.Clears position) ∧ (x.2.outcome.isRejection = true ↔ p.Blames position) := by
    intro x hx p hp position hholds
    obtain ⟨result, hmem, hjudge⟩ := hinv.judged p hp x.1 position hholds
    rwa [hinv.unique hmem hx] at hjudge
  refine ⟨?_, hpending ▸ hinv.once, hcounted, hinv.label, ?_, ?_, hinv.aligned, hinv.own⟩
  · rw [hvalue, hresult, hinv.results]
  · intro x hx
    constructor
    · intro hpublished
      obtain ⟨p, hp, position, hholds⟩ := hinv.sent x hx (.inl hpublished)
      exact ⟨p, hp, position, hholds, (hjudged x hx p hp position hholds).1.mp hpublished⟩
    · rintro ⟨p, hp, position, hholds, hclears⟩
      exact (hjudged x hx p hp position hholds).1.mpr hclears
  · intro x hx
    constructor
    · intro hrejected
      obtain ⟨p, hp, position, hholds⟩ := hinv.sent x hx (.inr hrejected)
      exact ⟨p, hp, position, hholds, (hjudged x hx p hp position hholds).2.mp hrejected⟩
    · rintro ⟨p, hp, position, hholds, hblames⟩
      exact (hjudged x hx p hp position hholds).2.mpr hblames

/-- However the signatures, the cuts, the slot end and the POSTs fall, the call returns with every duty either in one
result or in the count of those that were dropped. An attestation is published exactly when it was sent and the report
of its wave names neither its position nor one outside of the array, and rejected exactly when the report names its
position. -/
theorem process_slot_until_accounts (cfg : SlotConfig) (duties : List TypedAttesterDuty) (drops : UInt64) :
    Settles (SlotStep cfg duties) (fun s => ∃ account dropped, Accounted cfg duties drops s account dropped)
      (.start duties drops) := by
  refine Settles.of_measure (fun s => (∃ account, SlotInv cfg duties s account) ∧ SlotReturn cfg duties drops s)
    todo ?_ (fun hstep => hstep.todo_lt) ?_ ⟨⟨[], .start cfg duties drops⟩, .start cfg duties drops⟩
  · rintro s t ⟨⟨account, hinv⟩, hreturn⟩ hstep
    exact ⟨hinv.step hstep.2, hreturn.step hinv hstep⟩
  · rintro s ⟨⟨account, hinv⟩, hreturn⟩ hstop
    have hreturned : s.returned ≠ none := by
      intro hopen
      obtain ⟨t, hmove⟩ := exists_slotMove cfg duties s
      exact hstop t ⟨hopen, hmove⟩
    exact ⟨account, s.waiting, accounted_of_inv hinv hreturn hreturned⟩

end Rvc.Orchestrator.Attestation
