import Rvc.KeymanagerApi.Lifecycle

/-!
# Tasks and their tokens

A task is live as long as it could still enable its key: it has not finished and its token is not cancelled.
The token of a live task is the one in the map. So whoever cancels the token in the map, or displaces it,
leaves the key without a live task.
-/

namespace Rvc.KeymanagerApi

open Rvc.Lib Rvc.ValidatorStore Function Option State

/-- The task has not finished and its token is not cancelled. -/
def State.Live (s : State) (token : Nat) (pubkey : Pubkey) : Prop :=
  ∃ task, s.tasks token = some task ∧ task.pubkey = pubkey ∧ task.cancelled = false ∧ task.finished = false

/-- The token of every live task is the one in the map, and the next token is new. -/
structure State.Registered (s : State) : Prop where
  mapped : ∀ token pubkey, s.Live token pubkey → s.cancelTokens.lookup pubkey = some token
  fresh : ∀ token, s.nextToken ≤ token → s.tasks token = none

section

variable {s s' : State} {token other : Nat} {pubkey k : Pubkey}

theorem live_congr (htasks : s'.tasks = s.tasks) : s'.Live token k ↔ s.Live token k := by
  rw [State.Live, htasks, State.Live]

theorem State.Registered.unique (h : s.Registered) (hlive : s.Live token k) (hother : s.Live other k) : token = other :=
  some.inj ((h.mapped _ _ hlive).symm.trans (h.mapped _ _ hother))

theorem live_update {f : Task → Task} (hf : ∀ task, (f task).cancelled = true ∨ (f task).finished = true)
    (htasks : s'.tasks = update s.tasks other ((s.tasks other).map f)) :
    s'.Live token k ↔ s.Live token k ∧ token ≠ other := by
  rw [State.Live, htasks]
  by_cases heq : token = other
  · subst heq
    constructor
    · rintro ⟨task, htask, -, hcancelled, hfinished⟩
      rw [update_self] at htask
      obtain ⟨task', -, rfl⟩ := map_eq_some_iff.mp htask
      rcases hf task' with h | h
      · rw [h] at hcancelled
        cases hcancelled
      · rw [h] at hfinished
        cases hfinished
    · exact fun h => absurd rfl h.2
  · rw [update_of_ne heq]
    exact ⟨fun h => ⟨h, heq⟩, fun h => h.1⟩

theorem live_cancel : (s.cancel other).Live token k ↔ s.Live token k ∧ token ≠ other :=
  live_update (fun _ => .inl rfl) rfl

theorem live_finish : (s.finish other).Live token k ↔ s.Live token k ∧ token ≠ other :=
  live_update (fun _ => .inr rfl) rfl

theorem fresh_update (h : s.Registered) {f : Task → Task}
    (htasks : s'.tasks = update s.tasks other ((s.tasks other).map f))
    (hnext : s'.nextToken = s.nextToken) : ∀ token, s'.nextToken ≤ token → s'.tasks token = none := by
  intro token hle
  have hnone := h.fresh token (hnext ▸ hle)
  rw [htasks]
  by_cases heq : token = other
  · rw [heq, update_self, ← heq, hnone, map_none]
  · rw [update_of_ne heq, hnone]

theorem State.Registered.finish (h : s.Registered) (other : Nat) : (s.finish other).Registered :=
  ⟨fun token k hlive => h.mapped token k (live_finish.mp hlive).1, fresh_update h rfl rfl⟩

theorem live_cancelEnableToken (h : s.Registered) (hlive : (s.cancelEnableToken pubkey).Live token k) :
    s.Live token k ∧ k ≠ pubkey := by
  unfold cancelEnableToken at hlive
  split at hlive
  next old hold =>
    obtain ⟨hlive', hne⟩ : s.Live token k ∧ token ≠ old := live_cancel.mp ((live_congr rfl).mp hlive)
    refine ⟨hlive', ?_⟩
    rintro rfl
    exact hne (some.inj ((h.mapped _ _ hlive').symm.trans hold))
  next hnone =>
    refine ⟨hlive, ?_⟩
    rintro rfl
    have hmapped := h.mapped _ _ hlive
    rw [hnone] at hmapped
    cases hmapped

theorem State.Registered.cancelEnableToken (h : s.Registered) (pubkey : Pubkey) :
    (s.cancelEnableToken pubkey).Registered := by
  refine ⟨fun token k hlive => ?_, ?_⟩
  · obtain ⟨hlive, hne⟩ := live_cancelEnableToken h hlive
    have hmapped := h.mapped token k hlive
    unfold State.cancelEnableToken
    split
    · exact (AList.lookup_erase_ne hne).trans hmapped
    · exact hmapped
  · unfold State.cancelEnableToken
    split
    · exact fresh_update h rfl rfl
    · exact h.fresh

@[simp] theorem cancelEnableToken_store : (s.cancelEnableToken pubkey).store = s.store := by
  unfold cancelEnableToken
  split
  · rfl
  · rfl

@[simp] theorem cancelEnableToken_nextToken : (s.cancelEnableToken pubkey).nextToken = s.nextToken := by
  unfold cancelEnableToken
  split
  · rfl
  · rfl

@[simp] theorem cancelEnableToken_stateLock : (s.cancelEnableToken pubkey).stateLock = s.stateLock := by
  unfold cancelEnableToken
  split
  · rfl
  · rfl

section

variable (s : State) (pubkey : Pubkey) (kind : ImportKind)

theorem spawnEnableTask_tasks : (s.spawnEnableTask pubkey kind).tasks =
      update (s.cancelEnableToken pubkey).tasks s.nextToken (some ⟨pubkey, kind, false, false⟩) := by
  unfold spawnEnableTask cancelEnableToken
  cases s.cancelTokens.lookup pubkey with
  | some old | none => rfl

theorem spawnEnableTask_store : (s.spawnEnableTask pubkey kind).store = s.store := by
  unfold spawnEnableTask
  cases s.cancelTokens.lookup pubkey with
  | some old | none => rfl

theorem spawnEnableTask_stateLock : (s.spawnEnableTask pubkey kind).stateLock = s.stateLock := by
  unfold spawnEnableTask
  cases s.cancelTokens.lookup pubkey with
  | some old | none => rfl

end

theorem live_spawnEnableTask (h : s.Registered) {kind : ImportKind}
    (hlive : (s.spawnEnableTask pubkey kind).Live token k) :
    token = s.nextToken ∧ k = pubkey ∨ s.Live token k ∧ k ≠ pubkey := by
  obtain ⟨task, htask, hpk, hrest⟩ := hlive
  rw [spawnEnableTask_tasks] at htask
  by_cases heq : token = s.nextToken
  · subst heq
    rw [update_self, some.injEq] at htask
    subst htask
    exact .inl ⟨rfl, hpk.symm⟩
  · rw [update_of_ne heq] at htask
    exact .inr (live_cancelEnableToken h ⟨task, htask, hpk, hrest⟩)

theorem State.Registered.spawnEnableTask (h : s.Registered) (pubkey : Pubkey) (kind : ImportKind) :
    (s.spawnEnableTask pubkey kind).Registered := by
  refine ⟨fun token k hlive => ?_, fun token hle => ?_⟩
  · obtain ⟨rfl, rfl⟩ | ⟨hlive, hne⟩ := live_spawnEnableTask h hlive
    · exact AList.lookup_insert s.cancelTokens
    · exact (AList.lookup_insert_ne hne).trans (h.mapped token k hlive)
  · have hlt : s.nextToken < token := hle
    have hnone : (s.cancelEnableToken pubkey).tasks token = none := by
      apply (h.cancelEnableToken pubkey).fresh
      rw [cancelEnableToken_nextToken]
      exact Nat.le_of_lt hlt
    rw [spawnEnableTask_tasks, update_of_ne (Nat.ne_of_gt hlt), hnone]

theorem live_complete (h : s.Registered) (hlive : s.Live other pubkey)
    (hlive' : ((s.completeEnable pubkey).finish other).Live token k) : s.Live token k ∧ k ≠ pubkey := by
  obtain ⟨hlive', hne⟩ := live_finish.mp hlive'
  refine ⟨hlive', ?_⟩
  rintro rfl
  exact hne (h.unique hlive' hlive)

theorem State.Registered.complete (h : s.Registered) (hlive : s.Live other pubkey) :
    ((s.completeEnable pubkey).finish other).Registered := by
  refine ⟨fun token k hlive' => ?_, fresh_update h rfl rfl⟩
  obtain ⟨hlive', hne⟩ := live_complete h hlive hlive'
  exact (AList.lookup_erase_ne hne).trans (h.mapped token k hlive')

end

end Rvc.KeymanagerApi
