import Rvc.KeymanagerApi.Tokens
import Rvc.ValidatorStore.Effects

/-!
# No stale enable task

Between a disable of the store and its listener the task of the key is still live, but the row it would enable
has no hold, and the hold of a disabled row does not come back while the task lives. A delete and a re-import
leave no live task of the key.
-/

namespace Rvc.KeymanagerApi

open Rvc.Lib Rvc.Lib.Steps Rvc.ValidatorStore Option List Nat KeymanagerApi State Call Action

/-! ### Effects and rows -/

def After (token : Nat) (pubkey : Pubkey) (trace : List Effect) (effect : Effect) : Prop :=
  ∃ middle earlier, trace = middle ++ .spawned token pubkey :: earlier ∧ effect ∈ middle

variable {token : Nat} {effect : Effect}

theorem After.spawned_mem {pubkey : Pubkey} {trace : List Effect}
    (h : After token pubkey trace effect) : .spawned token pubkey ∈ trace := by
  obtain ⟨middle, earlier, rfl, -⟩ := h
  simp

theorem After.of_toList_append {pubkey : Pubkey} {new : Option Effect} {trace : List Effect}
    (h : After token pubkey (new.toList ++ trace) effect) :
    new = some effect ∨ After token pubkey trace effect := by
  cases new with
  | none => exact .inr h
  | some first =>
    obtain ⟨middle, earlier, htrace, hmem⟩ := h
    cases middle with
    | nil => cases hmem
    | cons head middle =>
      obtain ⟨rfl, hrest⟩ := cons.inj htrace
      rcases mem_cons.mp hmem with rfl | hmem
      · exact .inl rfl
      · exact .inr ⟨middle, earlier, hrest, hmem⟩

/-- What the row of a key must show after an effect, if a task of the key is still live. -/
def Effect.Fits (pubkey : Pubkey) (row : Option (Bool × Option Nat)) : Effect → Prop
  | disabled k => k = pubkey → row = some (false, none)
  | imported k => k = pubkey → row = some (false, none)
  | deleted k => k ≠ pubkey
  | importFailed k untilUnix => k = pubkey → row = none ∨ row = some (false, none) ∨
      ∃ stored, untilUnix ≤ stored ∧ row = some (false, some stored)
  | spawned _ _ => True
  | enabled _ _ _ => True

def Effect.pubkey : Effect → Pubkey
  | disabled k => k
  | imported k => k
  | deleted k => k
  | importFailed k _ => k
  | spawned _ k => k
  | enabled _ k _ => k

theorem Effect.fits_of_ne {k : Pubkey} (hk : effect.pubkey ≠ k)
    (row : Option (Bool × Option Nat)) : effect.Fits k row := by
  cases effect with
  | disabled pubkey | imported pubkey => exact fun heq => absurd heq hk
  | deleted pubkey => exact hk
  | importFailed pubkey untilUnix => exact fun heq => absurd heq hk
  | spawned token pubkey | enabled token pubkey now => trivial

/-- A change of a row that neither ends a disable nor shortens a hold nor adds the row. -/
structure Settles (before after : Option (Bool × Option Nat)) : Prop where
  absent : before = none → after = none
  disabled : before = some (false, none) → after = some (false, none)
  held : ∀ old, before = some (false, some old) →
    after = some (false, none) ∨ ∃ stored, old ≤ stored ∧ after = some (false, some stored)

theorem Settles.refl (row : Option (Bool × Option Nat)) : Settles row row :=
  ⟨id, id, fun old h => .inr ⟨old, le_refl old, h⟩⟩

theorem Settles.of_eq {before after : Option (Bool × Option Nat)} (h : after = before) : Settles before after := by
  rw [h]
  exact .refl before

theorem Settles.fits {before after : Option (Bool × Option Nat)} (h : Settles before after)
    {pubkey : Pubkey} (hfits : effect.Fits pubkey before) : effect.Fits pubkey after := by
  cases effect with
  | disabled k | imported k => exact fun hk => h.disabled (hfits hk)
  | deleted k => exact hfits
  | importFailed k untilUnix =>
    intro hk
    rcases hfits hk with hnone | hdisabled | ⟨old, hle, hheld⟩
    · exact .inl (h.absent hnone)
    · exact .inr (.inl (h.disabled hdisabled))
    · rcases h.held old hheld with hdisabled | ⟨stored, hle', hheld⟩
      · exact .inr (.inl hdisabled)
      · exact .inr (.inr ⟨stored, le_trans hle hle', hheld⟩)
  | spawned token k | enabled token k now => trivial

theorem settles_publishEnabled (pubkey : Pubkey) (rows : Rows) (k : Pubkey) :
    Settles (standing rows k) (standing (publishEnabled pubkey false rows) k) := by
  rw [standing_publishEnabled]
  split
  · refine ⟨fun h => ?_, fun h => ?_, fun old h => ?_⟩
    · simp [h]
    · simp [h]
    · simp [h]
  · exact .refl _

theorem settles_begun {untilUnix : Nat} {before after : Option (Bool × Option Nat)}
    {r : Except ValidatorStoreError Bool} (h : Begun untilUnix before after r) (hr : r ≠ .ok true) :
    Settles before after := by
  cases h with
  | refused hbefore hafter => exact .of_eq hafter
  | failed e hbefore hafter => exact .of_eq (hafter.trans hbefore.symm)
  | held stored hle hold hnot habsent hfalse hafter =>
    refine ⟨fun hnone => absurd (habsent hnone) hr, fun hdisabled => absurd hdisabled hnot, fun old hheld => ?_⟩
    exact .inr ⟨stored, hold old hheld, hafter⟩

/-! ### The invariant -/

/-- The rows of a key have changed and its tasks have not yet. -/
def Section.Unsettled (k : Pubkey) : Section → Prop
  | importing pubkey _ => pubkey = k
  | released _ pubkey => pubkey = k
  | _ => False

def State.Unsettled (s : State) (k : Pubkey) : Prop := ∃ held, s.stateLock = some held ∧ held.Unsettled k

def Section.Knows (s : State) : Section → Prop
  | importing _ _ => True
  | disabling pubkey => ∀ token, ¬ s.Live token pubkey
  | deleting pubkey => ∀ token, ¬ s.Live token pubkey
  | releasing token pubkey => s.Live token pubkey
  | released token pubkey => s.Live token pubkey
  | refused token pubkey => s.Live token pubkey

structure Inv (trace : List Effect) (s : State) : Prop where
  registered : s.Registered
  born : ∀ token k, s.Live token k → .spawned token k ∈ trace
  past : ∀ token k, .spawned token k ∈ trace → token < s.nextToken
  knows : ∀ held, s.stateLock = some held → held.Knows s
  fits : ∀ token k, s.Live token k → ¬ s.Unsettled k → ∀ effect, After token k trace effect →
    effect.Fits k (standing s.store.rows k)

variable {store : World}

section

variable {env : Env} {window : Nat} {trace : List Effect} {s s' : State} {effect : Option Effect}

theorem State.not_unsettled_of_free (h : s.stateLock = none) (k : Pubkey) : ¬ s.Unsettled k := by
  rintro ⟨held, hheld, -⟩
  rw [h] at hheld
  cases hheld

theorem Inv.start (store : World) : Inv [] (State.new store) := by
  have hnone (token : Nat) (k : Pubkey) : ¬ (State.new store).Live token k := by
    rintro ⟨task, htask, -⟩
    cases htask
  exact ⟨⟨fun token k hlive => (hnone token k hlive).elim, fun _ _ => rfl⟩,
    fun token k hlive => (hnone token k hlive).elim, nofun, nofun, fun token k hlive => (hnone token k hlive).elim⟩

/-- What a step has to show. A task that is live after it was live before, or was spawned by it. -/
theorem Inv.next (h : Inv trace s) (hreg : s'.Registered) (hnext : s.nextToken ≤ s'.nextToken)
    (hnew : ∀ token k, effect = some (.spawned token k) → token < s'.nextToken)
    (hknows : ∀ held, s'.stateLock = some held → held.Knows s') (hlive : ∀ token k, s'.Live token k →
      s.Live token k ∨ token = s.nextToken ∧ effect = some (.spawned token k))
    (hrows : ∀ token k, s'.Live token k → ¬ s'.Unsettled k →
      (s.Live token k → ¬ s.Unsettled k ∧ Settles (standing s.store.rows k) (standing s'.store.rows k)) ∧
        ∀ e, effect = some e → e.Fits k (standing s'.store.rows k)) :
    Inv (effect.toList ++ trace) s' := by
  refine ⟨hreg, fun token k hlive' => ?_, fun token k hmem => ?_, hknows, fun token k hlive' hnot e hafter => ?_⟩
  · rcases hlive token k hlive' with hold | ⟨-, heffect⟩
    · exact mem_append_right _ (h.born token k hold)
    · simp [heffect]
  · rcases mem_append.mp hmem with hmem | hmem
    · exact hnew token k (mem_toList.mp hmem)
    · exact lt_of_lt_of_le (h.past token k hmem) hnext
  · obtain ⟨hold, hfits⟩ := hrows token k hlive' hnot
    rcases hafter.of_toList_append with heffect | hafter
    · exact hfits e heffect
    · rcases hlive token k hlive' with hlive | ⟨htoken, -⟩
      · obtain ⟨hnot', hsettles⟩ := hold hlive
        exact hsettles.fits (h.fits token k hlive hnot' e hafter)
      · exact absurd (h.past token k hafter.spawned_mem) (by omega)

theorem Inv.next_of_rows_eq (h : Inv trace s) (hreg : s'.Registered) (hnext : s'.nextToken = s.nextToken)
    (hknows : ∀ held, s'.stateLock = some held → held.Knows s') (hlive : ∀ token k, s'.Live token k → s.Live token k)
    (hunsettled : ∀ token k, s'.Live token k → ¬ s'.Unsettled k → ¬ s.Unsettled k)
    (hrows : ∀ token k, s'.Live token k → ¬ s'.Unsettled k → standing s'.store.rows k = standing s.store.rows k)
    (heffect : ∀ e, effect = some e → (∀ token k, e ≠ .spawned token k) ∧
      ∀ token k, s'.Live token k → ¬ s'.Unsettled k → e.Fits k (standing s'.store.rows k)) :
    Inv (effect.toList ++ trace) s' := by
  refine h.next hreg (le_of_eq hnext.symm) (fun token k hsome => ?_) hknows
    (fun token k hlive' => .inl (hlive token k hlive')) fun token k hlive' hnot => ⟨fun _ => ?_, ?_⟩
  · exact absurd rfl ((heffect _ hsome).1 token k)
  · exact ⟨hunsettled token k hlive' hnot, .of_eq (hrows token k hlive' hnot)⟩
  · exact fun e hsome => (heffect e hsome).2 token k hlive' hnot

/-! ### Steps that need no lock -/

theorem knows_congr (hlive : ∀ token k, s'.Live token k ↔ s.Live token k) {held : Section}
    (h : held.Knows s) : held.Knows s' := by
  cases held with
  | importing pubkey kind => trivial
  | disabling pubkey | deleting pubkey => exact fun token hlive' => h token ((hlive token pubkey).mp hlive')
  | releasing token pubkey | released token pubkey | refused token pubkey => exact (hlive token pubkey).mpr h

theorem fits_disabled {pubkey : Pubkey} {rows : Rows} (hsome : (rows.lookup pubkey).isSome = true)
    (k : Pubkey) : (Effect.disabled pubkey).Fits k (standing (publishEnabled pubkey false rows) k) := by
  rintro rfl
  obtain ⟨config, hconfig⟩ := isSome_iff_exists.mp hsome
  rw [standing_publishEnabled, if_pos rfl, standing, hconfig, map_some, map_some]

theorem Inv.storeDisable (h : Inv trace s) {α : Type} {pubkey : Pubkey} {m : Steps World α}
    (hm : (m s.store).final.rows = publishEnabled pubkey false s.store.rows) :
    Inv ((storeDisable pubkey m s).2.toList ++ trace) (storeDisable pubkey m s).1 := by
  unfold KeymanagerApi.storeDisable
  refine h.next ⟨h.registered.mapped, h.registered.fresh⟩ (Nat.le_refl _) (fun token k hsome => ?_)
    (fun held hheld => knows_congr (fun _ _ => live_congr rfl) (h.knows held hheld))
    (fun token k hlive => .inl hlive) fun token k hlive hnot => ⟨fun _ => ⟨hnot, ?_⟩, fun e hsome => ?_⟩
  · simp at hsome
  · simp only [hm]
    exact settles_publishEnabled pubkey s.store.rows k
  · obtain ⟨hfire, ⟨⟩⟩ := ite_none_right_eq_some.mp hsome
    simp only [hm]
    exact fits_disabled hfire k

theorem Inv.observeCancel (h : Inv trace s) {task : Task} (htask : s.tasks token = some task)
    (hcancelled : task.cancelled = true) : Inv trace (s.finish token) := by
  have hlive : ∀ other k, (s.finish token).Live other k ↔ s.Live other k := by
    intro other k
    rw [live_finish]
    refine ⟨fun hlive => hlive.1, fun hlive => ⟨hlive, ?_⟩⟩
    rintro rfl
    obtain ⟨task', htask', -, hnot, -⟩ := hlive
    cases htask.symm.trans htask'
    rw [hcancelled] at hnot
    cases hnot
  show Inv ((none : Option Effect).toList ++ trace) _
  exact h.next_of_rows_eq (h.registered.finish token) rfl
    (fun held hheld => knows_congr hlive (h.knows held hheld)) (fun other k hlive' => (hlive other k).mp hlive')
    (fun _ _ _ hnot => hnot) (fun _ _ _ _ => rfl) nofun

/-! ### Steps under the lock -/

theorem Inv.without (h : Inv trace s) (pubkey : Pubkey) (hreg : s'.Registered)
    (hnext : s'.nextToken = s.nextToken) (hknows : ∀ held, s'.stateLock = some held → held.Knows s')
    (hlive : ∀ token k, s'.Live token k → s.Live token k ∧ k ≠ pubkey) (hsettled : ∀ k, k ≠ pubkey → ¬ s.Unsettled k)
    (hrows : ∀ k, k ≠ pubkey → standing s'.store.rows k = standing s.store.rows k)
    (heffect : ∀ e, effect = some e → e.pubkey = pubkey ∧ ∀ token k, e ≠ .spawned token k) :
    Inv (effect.toList ++ trace) s' := by
  refine h.next_of_rows_eq hreg hnext hknows (fun token k hlive' => (hlive token k hlive').1)
    (fun token k hlive' _ => hsettled k (hlive token k hlive').2)
    (fun token k hlive' _ => hrows k (hlive token k hlive').2) fun e hsome => ?_
  obtain ⟨rfl, hnot⟩ := heffect e hsome
  exact ⟨hnot, fun token k hlive' _ => Effect.fits_of_ne (hlive token k hlive').2.symm _⟩

theorem Inv.spawn (h : Inv trace s) {pubkey : Pubkey} {kind : ImportKind} (hreg : s'.Registered)
    (hnext : s'.nextToken = s.nextToken + 1) (hfree : s'.stateLock = none) (hstore : s'.store = s.store)
    (hlive : ∀ token k, s'.Live token k → (s.spawnEnableTask pubkey kind).Live token k)
    (hsettled : ∀ k, k ≠ pubkey → ¬ s.Unsettled k) :
    Inv ((some (Effect.spawned s.nextToken pubkey)).toList ++ trace) s' := by
  have hcases : ∀ token k, s'.Live token k →
      token = s.nextToken ∧ k = pubkey ∨ s.Live token k ∧ k ≠ pubkey := fun token k hlive' =>
    live_spawnEnableTask h.registered (hlive token k hlive')
  refine h.next hreg (by omega) (fun token k hsome => ?_) (fun held hheld => ?_) (fun token k hlive' => ?_)
    fun token k hlive' _ => ⟨fun hold => ?_, fun e hsome => ?_⟩
  · cases hsome
    omega
  · rw [hfree] at hheld
    cases hheld
  · rcases hcases token k hlive' with ⟨rfl, rfl⟩ | ⟨hold, -⟩
    · exact .inr ⟨rfl, rfl⟩
    · exact .inl hold
  · rcases hcases token k hlive' with ⟨rfl, -⟩ | ⟨-, hne⟩
    · exact absurd (h.past _ _ (h.born _ _ hold)) (lt_irrefl _)
    · exact ⟨hsettled k hne, .of_eq (by rw [hstore])⟩
  · cases hsome
    trivial

section

variable (h : Inv trace s) (hfree : s.stateLock = none) {pubkey : Pubkey}

include h hfree pubkey

theorem Inv.notArmed {untilUnix : Nat} {r : Except ValidatorStoreError Bool} {e : Effect}
    (hothers : ∀ k, k ≠ pubkey → standing store.rows k = standing s.store.rows k)
    (hbegun : Begun untilUnix (standing s.store.rows pubkey) (standing store.rows pubkey) r)
    (hr : r ≠ .ok true) (hpk : e.pubkey = pubkey) (hnot : ∀ token k, e ≠ .spawned token k)
    (hfits : e.Fits pubkey (standing store.rows pubkey)) :
    Inv ((some e).toList ++ trace) { s with store := store } := by
  refine h.next ⟨h.registered.mapped, h.registered.fresh⟩ (le_refl _) ?_ ?_
    (fun token k hlive => .inl hlive) fun token k _ _ => ⟨fun _ => ⟨not_unsettled_of_free hfree k, ?_⟩, ?_⟩
  · intro token k hsome
    exact absurd (some.inj hsome) (hnot token k)
  · intro held hheld
    exact knows_congr (fun _ _ => live_congr rfl) (h.knows held hheld)
  · by_cases hk : k = pubkey
    · subst hk
      exact settles_begun hbegun hr
    · exact .of_eq (hothers k hk)
  · intro e' hsome
    cases hsome
    by_cases hk : k = pubkey
    · subst hk
      exact hfits
    · exact Effect.fits_of_ne (fun heq => hk (heq.symm.trans hpk)) _

theorem Inv.importing {kind : ImportKind}
    (hothers : ∀ k, k ≠ pubkey → standing store.rows k = standing s.store.rows k) :
    Inv ((some (Effect.imported pubkey)).toList ++ trace)
      { s with store := store, stateLock := some (.importing pubkey kind) } := by
  refine h.next_of_rows_eq ⟨h.registered.mapped, h.registered.fresh⟩ rfl ?_ (fun _ _ hlive => hlive)
    (fun _ k _ _ => not_unsettled_of_free hfree k) ?_ ?_
  · intro held hheld
    cases hheld
    trivial
  · intro token k _ hnot
    exact hothers k fun hk => hnot ⟨_, rfl, hk.symm⟩
  · intro e hsome
    cases hsome
    refine ⟨nofun, fun token k _ hnot => ?_⟩
    have hne : (Effect.imported pubkey).pubkey ≠ k := fun hk => hnot ⟨_, rfl, hk⟩
    exact Effect.fits_of_ne hne _

theorem Inv.importLocal (hstep : importLocal env window pubkey s = (s', effect)) : Inv (effect.toList ++ trace) s' := by
  obtain ⟨-, -, -, hothers, hbegun⟩ := @beginDoppelgangerHold_does env s.store pubkey
    (min (s.store.clock + window) (2 ^ 64 - 1))
  unfold KeymanagerApi.importLocal at hstep
  dsimp only at hstep
  split at hstep
  next hvalue =>
    cases hstep
    exact h.importing hfree hothers
  next hvalue =>
    cases hstep
    rw [hvalue] at hbegun
    refine h.notArmed hfree hothers hbegun (by simp) rfl nofun fun _ => ?_
    cases hbegun with
    | refused hbefore hafter => exact hafter.trans hbefore
    | held stored _ _ _ _ hfalse _ => exact absurd rfl hfalse
  next e hvalue =>
    cases hstep
    rw [hvalue] at hbegun
    refine h.notArmed hfree hothers hbegun (by simp) rfl nofun fun _ => ?_
    cases hbegun with
    | failed _ _ hafter => exact .inl hafter
    | held stored hle _ _ _ _ hafter => exact .inr (.inr ⟨stored, hle, hafter⟩)

theorem Inv.cancelling {lock : Option Section}
    (hs' : s' = { s.cancelEnableToken pubkey with stateLock := lock, listeners := s'.listeners })
    (hlock : lock = none ∨ lock = some (.disabling pubkey) ∨ lock = some (.deleting pubkey))
    (heffect : ∀ e, effect = some e → e = .deleted pubkey) : Inv (effect.toList ++ trace) s' := by
  have hgone : ∀ token, ¬ (s.cancelEnableToken pubkey).Live token pubkey := fun token hlive =>
    (live_cancelEnableToken h.registered hlive).2 rfl
  have hreg := h.registered.cancelEnableToken pubkey
  rw [hs']
  refine h.without pubkey ⟨hreg.mapped, hreg.fresh⟩ cancelEnableToken_nextToken (fun held hheld => ?_)
    (fun _ _ hlive => live_cancelEnableToken h.registered hlive) (fun k _ => not_unsettled_of_free hfree k)
    (fun k _ => by simp only [cancelEnableToken_store]) fun e hsome => ?_
  · rcases hlock with rfl | rfl | rfl
    · cases hheld
    · cases hheld
      exact hgone
    · cases hheld
      exact hgone
  · rw [heffect e hsome]
    exact ⟨rfl, nofun⟩

end

section

variable (h : Inv trace s)

include h

theorem Inv.wake (hfree : s.stateLock = none) {task : Task}
    (htask : s.tasks token = some task) (hunfinished : task.finished = false)
    (hstep : wake token task s = (s', effect)) : Inv (effect.toList ++ trace) s' := by
  have hsettled := not_unsettled_of_free hfree
  unfold KeymanagerApi.wake at hstep
  split at hstep
  next hcancelled =>
    cases hstep
    exact h.observeCancel htask hcancelled
  next hcancelled =>
    have hlive : s.Live token task.pubkey := ⟨task, htask, rfl, by simpa using hcancelled, hunfinished⟩
    split at hstep
    · split at hstep
      · cases hstep
        refine h.next_of_rows_eq ⟨h.registered.mapped, h.registered.fresh⟩ rfl ?_ (fun _ _ hlive => hlive)
          (fun _ k _ _ => hsettled k) (fun _ _ _ _ => rfl) nofun
        intro held hheld
        cases hheld
        exact hlive
      · cases hstep
        refine h.without task.pubkey ((h.registered.cancelEnableToken task.pubkey).finish token)
          cancelEnableToken_nextToken ?_ (fun other k hlive' => ?_) (fun k _ => hsettled k) ?_ nofun
        · intro held hheld
          rw [finish, cancelEnableToken_stateLock, hfree] at hheld
          cases hheld
        · exact live_cancelEnableToken h.registered (live_finish.mp hlive').1
        · intro k _
          rw [finish, cancelEnableToken_store]
    · cases hstep
      refine h.without task.pubkey (h.registered.complete hlive) rfl ?_
        (fun other k hlive' => live_complete h.registered hlive hlive') (fun k _ => hsettled k)
        (fun _ _ => rfl) nofun
      intro held hheld
      cases hfree.symm.trans hheld

theorem Inv.call (hfree : s.stateLock = none) {call : Call}
    (hstep : call.run env window s = some (s', effect)) : Inv (effect.toList ++ trace) s' := by
  have hsettled := not_unsettled_of_free hfree
  have hfree' : ∀ pubkey, (s.cancelEnableToken pubkey).stateLock = none := by
    intro pubkey
    rw [cancelEnableToken_stateLock, hfree]
  cases call with
  | importLocal pubkey => exact h.importLocal hfree (Option.some.inj hstep)
  | importRemote pubkey =>
    cases hstep
    exact h.importing hfree fun _ _ => rfl
  | rearmPersistedHold pubkey =>
    cases hstep
    exact h.spawn (h.registered.spawnEnableTask pubkey .localKey) rfl
      ((spawnEnableTask_stateLock s pubkey .localKey).trans hfree) (spawnEnableTask_store s pubkey .localKey)
      (fun _ _ hlive => hlive) fun k _ => hsettled k
  | disableForDelete pubkey =>
    cases hstep
    exact h.cancelling hfree rfl (.inr (.inl rfl)) nofun
  | onDelete pubkey kind touch =>
    simp only [Call.run] at hstep
    split at hstep
    · cases hstep
      exact h.cancelling hfree rfl (.inr (.inr rfl)) fun _ hsome => (Option.some.inj hsome).symm
    · cases hstep
      exact h.cancelling hfree rfl (.inl (hfree' pubkey)) fun _ hsome => (Option.some.inj hsome).symm
  | cancelEnableOnDisable pubkey =>
    cases hstep
    exact h.cancelling hfree rfl (.inl (hfree' pubkey)) nofun
  | runListener pubkey =>
    simp only [Call.run] at hstep
    split at hstep
    · cases hstep
      exact h.cancelling hfree rfl (.inl (hfree' pubkey)) nofun
    · cases hstep
  | wake token =>
    simp only [Call.run] at hstep
    split at hstep
    next task htask =>
      split at hstep
      · cases hstep
      next hunfinished => exact h.wake hfree htask (by simpa using hunfinished) (Option.some.inj hstep)
    · cases hstep

theorem Inv.finishDisable {pubkey : Pubkey} (hgone : ∀ token, ¬ s.Live token pubkey)
    (hsettled : ∀ k, ¬ s.Unsettled k) (hstep : finishDisable env pubkey s = (s', effect)) :
    Inv (effect.toList ++ trace) s' := by
  have hothers : ∀ k, k ≠ pubkey → standing (setEnabledDurable env pubkey false s.store).final.rows k =
      standing s.store.rows k := by
    intro k hk
    rw [(@setEnabledDurable_does env s.store pubkey).2.2.rows, standing_publishEnabled, if_neg hk]
  have hreg : { s with store := (setEnabledDurable env pubkey false s.store).final, stateLock := none }.Registered :=
    ⟨h.registered.mapped, h.registered.fresh⟩
  unfold KeymanagerApi.finishDisable at hstep
  dsimp only at hstep
  split at hstep
  · cases hstep
    refine h.without pubkey (hreg.cancelEnableToken pubkey) cancelEnableToken_nextToken ?_
      (fun token k hlive => ?_) (fun k _ => hsettled k) ?_ ?_
    · intro held hheld
      rw [cancelEnableToken_stateLock] at hheld
      cases hheld
    · have hlive' := live_cancelEnableToken hreg hlive
      exact hlive'
    · intro k hk
      rw [cancelEnableToken_store]
      exact hothers k hk
    · intro e hsome
      cases hsome
      exact ⟨rfl, nofun⟩
  · cases hstep
    refine h.without pubkey hreg rfl nofun (fun token k hlive => ⟨hlive, ?_⟩) (fun k _ => hsettled k) hothers nofun
    rintro rfl
    exact hgone token hlive

theorem Inv.release {pubkey : Pubkey} (hlive : s.Live token pubkey)
    (hsettled : ∀ k, ¬ s.Unsettled k) (hstep : release env token pubkey s = (s', effect)) :
    Inv (effect.toList ++ trace) s' := by
  have hrelease := (@releaseDoppelgangerHold_does env s.store pubkey).2.2.2
  unfold KeymanagerApi.release at hstep
  dsimp only at hstep
  split at hstep
  next hvalue =>
    cases hstep
    rw [hvalue] at hrelease
    rcases hrelease with ⟨-, hrows, -⟩ | ⟨hr, -⟩
    · refine h.next_of_rows_eq ⟨h.registered.mapped, h.registered.fresh⟩ rfl ?_ (fun _ _ hlive => hlive)
        (fun _ k _ _ => hsettled k) ?_ ?_
      · intro held hheld
        cases hheld
        exact hlive
      · intro other k _ hnot
        have hk : k ≠ pubkey := fun hk => hnot ⟨_, rfl, hk.symm⟩
        simp only [hrows, standing_publishEnabled, if_neg hk]
      · intro e hsome
        cases hsome
        exact ⟨nofun, fun _ _ _ _ => trivial⟩
    · exact absurd rfl hr
  next hvalue =>
    cases hstep
    rw [hvalue] at hrelease
    rcases hrelease with ⟨hr, -⟩ | ⟨-, hrows⟩
    · cases hr
    · refine h.next_of_rows_eq ⟨h.registered.mapped, h.registered.fresh⟩ rfl ?_ (fun _ _ hlive => hlive)
        (fun _ k _ _ => hsettled k) (fun _ _ _ _ => by simp only [hrows]) nofun
      intro held hheld
      cases hheld
      exact hlive
  next e hvalue =>
    cases hstep
    rw [hvalue] at hrelease
    rcases hrelease with ⟨hr, -⟩ | ⟨-, hrows⟩
    · cases hr
    · exact h.next_of_rows_eq ⟨h.registered.mapped, h.registered.fresh⟩ rfl nofun (fun _ _ hlive => hlive)
        (fun _ k _ _ => hsettled k) (fun _ _ _ _ => by simp only [hrows]) nofun

theorem Inv.finishRefused {pubkey : Pubkey}
    (hsettled : ∀ k, ¬ s.Unsettled k) (hstep : finishRefused token pubkey s = (s', effect)) :
    Inv (effect.toList ++ trace) s' := by
  unfold KeymanagerApi.finishRefused at hstep
  split at hstep
  · cases hstep
    have hspawned := (h.registered.spawnEnableTask pubkey .localKey).finish token
    exact h.spawn ⟨hspawned.mapped, hspawned.fresh⟩ rfl rfl
      (spawnEnableTask_store s pubkey .localKey) (fun _ _ hlive => (live_finish.mp hlive).1)
      fun k _ => hsettled k
  · cases hstep
    have hcancelled := (h.registered.cancelEnableToken pubkey).finish token
    refine h.without pubkey ⟨hcancelled.mapped, hcancelled.fresh⟩ cancelEnableToken_nextToken nofun
      (fun other k hlive => live_cancelEnableToken h.registered (live_finish.mp hlive).1)
      (fun k _ => hsettled k) (fun k _ => ?_) nofun
    simp only [finish, cancelEnableToken_store]

theorem Inv.goOn {held : Section} (hheld : s.stateLock = some held)
    (hstep : held.run env s = (s', effect)) : Inv (effect.toList ++ trace) s' := by
  have hknows := h.knows held hheld
  have hunsettled : ∀ k, s.Unsettled k → held.Unsettled k := by
    rintro k ⟨held', hheld', hun⟩
    cases hheld.symm.trans hheld'
    exact hun
  cases held with
  | importing pubkey kind =>
    cases hstep
    obtain ⟨hmapped, hfresh⟩ := h.registered.spawnEnableTask pubkey kind
    exact h.spawn ⟨hmapped, hfresh⟩ rfl rfl (spawnEnableTask_store s pubkey kind) (fun _ _ hlive => hlive)
      fun k hk hun => hk (hunsettled k hun).symm
  | disabling pubkey => exact h.finishDisable hknows hunsettled hstep
  | deleting pubkey =>
    cases hstep
    refine h.without pubkey ⟨h.registered.mapped, h.registered.fresh⟩ rfl nofun (fun token k hlive => ?_)
      (fun k _ hun => hunsettled k hun) (fun k hk => ?_) nofun
    · refine ⟨hlive, ?_⟩
      rintro rfl
      exact hknows token hlive
    · rcases (@removeValidatorDurable_does env s.store pubkey).2.1.rows with hrows | hrows
      · simp only [hrows]
      · simp only [hrows, standing_erase_ne hk]
  | releasing token pubkey => exact h.release hknows hunsettled hstep
  | released token pubkey =>
    cases hstep
    obtain ⟨hmapped, hfresh⟩ := h.registered.complete hknows
    exact h.without pubkey ⟨hmapped, hfresh⟩ rfl nofun (fun other k hlive => live_complete h.registered hknows hlive)
      (fun k hk hun => hk (hunsettled k hun).symm) (fun _ _ => rfl) nofun
  | refused token pubkey => exact h.finishRefused hunsettled hstep

theorem Inv.step {action : Action} (hstep : action.run env window s = some (s', effect)) :
    Inv (effect.toList ++ trace) s' := by
  cases action with
  | call call =>
    simp only [Action.run] at hstep
    split at hstep
    next hfree => exact h.call hfree hstep
    · cases hstep
  | goOn =>
    obtain ⟨held, hheld, hrun⟩ := map_eq_some_iff.mp hstep
    exact h.goOn hheld hrun
  | observeCancel token =>
    simp only [Action.run] at hstep
    split at hstep
    next task htask =>
      obtain ⟨hcond, hsome⟩ := ite_none_right_eq_some.mp hstep
      cases hsome
      exact h.observeCancel htask (Bool.and_eq_true_iff.mp hcond).1
    · cases hstep
  | setDisabled pubkey =>
    cases hstep
    exact h.storeDisable (@setEnabledDurable_does env s.store pubkey).2.2.rows
  | disableSlashed pubkey =>
    cases hstep
    exact h.storeDisable (@disableSlashed_does env s.store pubkey).2.2.rows
  | setClock now =>
    cases hstep
    exact h.next_of_rows_eq ⟨h.registered.mapped, h.registered.fresh⟩ rfl
      (fun held hheld => knows_congr (fun _ _ => live_congr rfl) (h.knows held hheld)) (fun _ _ hlive => hlive)
      (fun _ _ _ hnot => hnot) (fun _ _ _ _ => rfl) nofun

end

theorem Run.inv (h : Run env window store trace s) : Inv trace s := by
  induction h with
  | start => exact Inv.start store
  | step _ hstep ih => exact ih.step hstep

/-! ### What the enabling task finds -/

theorem call_not_enabled {call : Call} {now : Nat} {pubkey : Pubkey}
    (hstep : call.run env window s = some (s', some (.enabled token pubkey now))) : False := by
  cases call with
  | importLocal k =>
    simp only [Call.run, importLocal] at hstep
    split at hstep
    · cases hstep
    · cases hstep
    · cases hstep
  | importRemote k | rearmPersistedHold k | disableForDelete k => cases hstep
  | onDelete k kind touch =>
    simp only [Call.run] at hstep
    split at hstep
    · cases hstep
    · cases hstep
  | cancelEnableOnDisable k => cases hstep
  | runListener k =>
    obtain ⟨-, hsome⟩ := ite_none_right_eq_some.mp hstep
    cases hsome
  | wake other =>
    simp only [Call.run, wake] at hstep
    grind

theorem run_enabled {action : Action} {now : Nat} {pubkey : Pubkey}
    (hstep : action.run env window s = some (s', some (.enabled token pubkey now))) :
    s.stateLock = some (.releasing token pubkey) ∧ now = s.store.clock ∧
      (releaseDoppelgangerHold env pubkey s.store).value = .ok true := by
  cases action with
  | call call =>
    simp only [Action.run] at hstep
    split at hstep
    · exact (call_not_enabled hstep).elim
    · cases hstep
  | goOn =>
    obtain ⟨held, hheld, hrun⟩ := map_eq_some_iff.mp hstep
    cases held with
    | importing k kind => cases hrun
    | disabling k =>
      simp only [Section.run, finishDisable] at hrun
      split at hrun
      · cases hrun
      · cases hrun
    | deleting k => cases hrun
    | releasing other k =>
      simp only [Section.run, release] at hrun
      split at hrun
      next hvalue =>
        cases hrun
        exact ⟨hheld, rfl, hvalue⟩
      · cases hrun
      · cases hrun
    | released other k => cases hrun
    | refused other k =>
      simp only [Section.run, finishRefused] at hrun
      split at hrun
      · cases hrun
      · cases hrun
  | observeCancel other =>
    simp only [Action.run] at hstep
    split at hstep
    · obtain ⟨-, hsome⟩ := ite_none_right_eq_some.mp hstep
      cases hsome
    · cases hstep
  | setDisabled k | disableSlashed k =>
    simp [Action.run, storeDisable] at hstep
  | setClock time => cases hstep

/-- An effect that does not make an enabling of the key at the time stale: the key was not disabled, deleted
or imported by it, and if it is a failed import, the hold of that import has elapsed. -/
def Effect.Harmless (pubkey : Pubkey) (now : Nat) (effect : Effect) : Prop :=
  effect ≠ .disabled pubkey ∧ effect ≠ .deleted pubkey ∧ effect ≠ .imported pubkey ∧
    ∀ untilUnix, effect = .importFailed pubkey untilUnix → untilUnix ≤ now

theorem Inv.enabled (h : Inv trace s) {action : Action} {now : Nat} {pubkey : Pubkey}
    (hstep : action.run env window s = some (s', some (.enabled token pubkey now))) :
    .spawned token pubkey ∈ trace ∧ ∀ e, After token pubkey trace e → e.Harmless pubkey now := by
  obtain ⟨hlock, rfl, hvalue⟩ := run_enabled hstep
  have hlive : s.Live token pubkey := h.knows _ hlock
  have hsettled : ¬ s.Unsettled pubkey := by
    rintro ⟨held, hheld, hun⟩
    cases hlock.symm.trans hheld
    exact hun
  -- the row it enables has a hold, and the hold has elapsed
  obtain ⟨enabled, stored, hstanding, hle⟩ : ∃ enabled stored,
      standing s.store.rows pubkey = some (enabled, some stored) ∧ stored ≤ s.store.clock := by
    have hrelease := (@releaseDoppelgangerHold_does env s.store pubkey).2.2.2
    rw [hvalue] at hrelease
    rcases hrelease with ⟨-, -, hheld⟩ | ⟨hr, -⟩
    · exact hheld
    · exact absurd rfl hr
  refine ⟨h.born token pubkey hlive, fun e hafter => ?_⟩
  have hfits := h.fits token pubkey hlive hsettled e hafter
  rw [hstanding] at hfits
  refine ⟨?_, ?_, ?_, ?_⟩
  · rintro rfl
    cases hfits rfl
  · rintro rfl
    exact hfits rfl
  · rintro rfl
    cases hfits rfl
  · rintro untilUnix rfl
    rcases hfits rfl with hnone | hdisabled | ⟨stored', hle', hheld⟩
    · cases hnone
    · cases hdisabled
    · cases hheld
      exact le_trans hle' hle

end

/-- **No stale enable task.** In every run: since the task that enables a key was spawned, no disable, no
delete and no import of the key took effect, and the holds that failed imports may have published have
elapsed; and a task of a key that is neither finished nor cancelled is the only one, with the token in the
map. -/
theorem no_stale_enable {env : Env} {window : Nat} {store : World} {trace : List Effect} {s : State}
    (h : Run env window store trace s) :
    (∀ later token pubkey now before, trace = later ++ .enabled token pubkey now :: before →
      .spawned token pubkey ∈ before ∧ ∀ effect, After token pubkey before effect → effect.Harmless pubkey now) ∧
    ∀ token pubkey, s.Live token pubkey →
      s.cancelTokens.lookup pubkey = some token ∧ ∀ other, s.Live other pubkey → other = token := by
  refine ⟨?_, fun token pubkey hlive => ?_⟩
  · induction h with
    | start => simp
    | @step trace s s' action effect hrun hstep ih =>
      intro later token pubkey now before htrace
      cases effect with
      | none => exact ih later token pubkey now before htrace
      | some e =>
        cases later with
        | nil =>
          cases htrace
          exact hrun.inv.enabled hstep
        | cons first later => exact ih later token pubkey now before (cons.inj htrace).2
  · have hreg := h.inv.registered
    exact ⟨hreg.mapped token pubkey hlive, fun other hother => hreg.unique hother hlive⟩

def runActions (env : Env) (window : Nat) : List Action → List Effect × State → Option (List Effect × State)
  | [], reached => some reached
  | action :: rest, (trace, s) =>
      match action.run env window s with
      | some (s', effect) => runActions env window rest (effect.toList ++ trace, s')
      | none => none

theorem run_runActions {env : Env} {window : Nat} {actions : List Action}
    {trace trace' : List Effect} {s s' : State} (h : Run env window store trace s)
    (hrun : runActions env window actions (trace, s) = some (trace', s')) : Run env window store trace' s' := by
  induction actions generalizing trace s with
  | nil =>
    cases hrun
    exact h
  | cons action rest ih =>
    rw [runActions] at hrun
    split at hrun
    next s'' effect hstep => exact ih (h.step hstep) hrun
    · cases hrun

def oneEnabled (pubkey : Pubkey) : World where
  running := true
  configPath := true
  rows := (∅ : Rows).insert pubkey .new
  file := .missing
  clock := 100
  writes := 0
  quarantines := 0

/-- A key is imported and enabled when its hold has elapsed, after another key was disabled. -/
theorem no_stale_enable_elapsed :
    let held : Pubkey := ⟨List.replicate 48 1, rfl⟩
    let other : Pubkey := ⟨List.replicate 48 2, rfl⟩
    let env : Env := ⟨fun _ => none, fun _ => .success, fun _ => .moved⟩
    ∃ s before, Run env 60 (oneEnabled other) (.enabled 0 held 160 :: before) s ∧
      After 0 held before (.disabled other) ∧ (Effect.disabled other).Harmless held 160 := by
  intro held other env
  have hrun : (runActions env 60 [.call (.importLocal held), .goOn, .disableSlashed other, .setClock 160,
      .call (.wake 0), .goOn] ([], new (oneEnabled other))).map Prod.fst =
      some [.enabled 0 held 160, .disabled other, .spawned 0 held, .imported held] := by
    decide +kernel
  obtain ⟨⟨trace, s⟩, hreached, rfl⟩ := map_eq_some_iff.mp hrun
  have h := run_runActions .start hreached
  have hafter : After 0 held [.disabled other, .spawned 0 held, .imported held] (.disabled other) :=
    ⟨[.disabled other], [.imported held], rfl, mem_singleton.mpr rfl⟩
  exact ⟨s, _, h, hafter, ((no_stale_enable h).1 [] 0 held 160 _ rfl).2 _ hafter⟩

end Rvc.KeymanagerApi
