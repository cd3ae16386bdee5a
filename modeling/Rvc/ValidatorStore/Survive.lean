import Rvc.ValidatorStore.Kept

/-!
# Disables and holds survive faults and restarts

A disable that returned `Ok` is in the rows and in the file, and so is kept. A hold is in the file whenever it
is in the rows, unless the file is off the boot path (`Synced`); so a hold that is answered for without being
written again is in the file as well. Both then follow from `runEvents_kept`.
-/

namespace Rvc.ValidatorStore

open Rvc.Lib Rvc.Lib.Steps Nat

def HeldInFile (rows : Rows) (file : ValidatorsFile) : Prop :=
  ∀ k deadline doc, RowHas (IsHeld deadline) k 0 rows → file = .document doc →
    RowHas (IsHeld deadline) k 0 (docRows doc)

theorem HeldInFile.snapshotToml (rows : Rows) : HeldInFile rows (.document (snapshotToml rows)) := by
  rintro k deadline doc hheld hdoc
  cases hdoc
  exact hheld.snapshotToml

variable {file : ValidatorsFile}

theorem HeldInFile.of_not_document {rows : Rows} (h : ∀ doc, file ≠ .document doc) : HeldInFile rows file :=
  fun _ _ doc _ hdoc => absurd hdoc (h doc)

theorem HeldInFile.of_fewer {rows rows' : Rows} (h : HeldInFile rows file)
    (hfewer : ∀ k deadline, RowHas (IsHeld deadline) k 0 rows' → RowHas (IsHeld deadline) k 0 rows) :
    HeldInFile rows' file :=
  fun k deadline doc hheld => h k deadline doc (hfewer k deadline hheld)

structure Synced (env : Env) (w : World) : Prop where
  path : w.running = true → w.configPath = true
  held : w.running = true → env.Quarantines → HeldInFile w.rows w.file

section

variable {env : Env} {w : World} {k : Pubkey} {deadline : Nat} {pubkey : Pubkey}

theorem Synced.of_inFile {P : Rows → Prop} {w' : World} (h : Synced env w) (hrun : w.running = true)
    (hmoves : Moves P w w') (hfile : InFile env w w') : Synced env w' := by
  refine ⟨fun _ => hmoves.configPath.trans (h.path hrun), fun _ hq => ?_⟩
  rcases hfile with ⟨heq, hfewer⟩ | hfile
  · rw [heq]
    exact (h.held hrun hq).of_fewer hfewer
  · rcases hfile (h.path hrun) with hwritten | hoff
    · rw [hwritten]
      exact .snapshotToml _
    · exact .of_not_document (hoff hq)

theorem Synced.of_not_running (h : w.running = false) : Synced env w := by
  refine ⟨fun hrun => ?_, fun hrun => ?_⟩
  · cases h.symm.trans hrun
  · cases h.symm.trans hrun

/-! ### Runs -/

theorem held_of_registered {loaded : List Pubkey} {rows : Rows}
    (h : RowHas (IsHeld deadline) k 0 (registerLoadedValidators loaded rows)) :
    RowHas (IsHeld deadline) k 0 rows := by
  unfold registerLoadedValidators at h
  induction loaded generalizing rows with
  | nil => exact h
  | cons pubkey loaded ih =>
    rw [List.foldl_cons] at h
    have h := ih h
    split at h
    · exact h
    · obtain ⟨config, hlookup, hheld⟩ := h
      by_cases hk : k = pubkey
      · subst hk
        rw [AList.lookup_insert] at hlookup
        cases hlookup
        cases hheld.1
      · rw [AList.lookup_insert_ne hk] at hlookup
        exact ⟨config, hlookup, hheld⟩

theorem boot_synced {loaded : List Pubkey} : Wp (boot env loaded) w (fun _ => True) fun _ => Synced env := by
  have hdown : Synced env { w with running := false, rows := ∅ } := .of_not_running rfl
  unfold boot
  simp only [wp_bind, wp_step, wp_look, true_and]
  split
  · simpa using hdown
  · simpa using hdown
  next doc hdoc =>
    split
    · simpa using hdown
    next configs hconfigs =>
      have hbooted : Synced env { w with
          running := true, configPath := true
          rows := registerLoadedValidators loaded (collectRows configs) } := by
        refine ⟨fun _ => rfl, fun _ _ => ?_⟩
        rintro key deadline doc' hheld hdoc'
        obtain rfl : doc = doc' := ValidatorsFile.document.inj (hdoc.symm.trans hdoc')
        rw [← collectRows_parseConfig hconfigs]
        exact held_of_registered hheld
      simp only [wp_bind, wp_step, wp_look, publish, reconcileDoppelgangerHoldsAtBoot, true_and]
      have hstep : ∀ pubkey w', Synced env w' ∧ w'.running = true → Wp (setEnabledDurable env pubkey true) w'
          (fun _ => True) fun _ w' => Synced env w' ∧ w'.running = true := by
        rintro pubkey w' ⟨h', hrun'⟩
        exact setEnabledDurable_true_does.mono (fun _ _ => trivial) fun _ _ hmoves =>
          ⟨h'.of_inFile hrun' hmoves.1 hmoves.2, hmoves.1.running.trans hrun'⟩
      exact (reconcileHolds_wp (fun pubkey _ _ _ => hstep pubkey) ⟨hbooted, rfl⟩).mono (fun _ => id)
        fun _ _ hw' => wp_pure.mpr hw'.1

theorem Op.run_synced {op : Op} (h : Synced env w) : Wp (op.run env) w (fun _ => True) fun _ => Synced env :=
  Op.run_wp h (fun _ => boot_synced) fun hrun _ hw' => ⟨trivial, h.of_inFile hrun hw'⟩

theorem Event.run_synced {event : Event} (h : Synced env w) :
    Wp (event.run env) w (fun _ => True) fun _ => Synced env := by
  cases event with
  | call op =>
    apply Wp.bind (Op.run_synced h)
    rintro _ w' h'
    simpa using h'
  | crash op n =>
    -- there is no process after it, so nothing can be out of step
    apply Wp.bind ((Op.run_synced h).cut trivial n)
    rintro _ w' -
    exact wp_step.mpr ⟨trivial, .of_not_running rfl⟩
  | tick seconds => exact wp_step.mpr ⟨trivial, h.path, h.held⟩

theorem runEvents_synced {events : List Event} (h : Synced env w) :
    Wp (runEvents env events) w (fun _ => True) fun _ => Synced env := by
  induction events generalizing w with
  | nil => simpa [runEvents] using h
  | cons event events ih =>
    apply Wp.bind (Event.run_synced h)
    rintro _ w' h'
    exact ih h'

/-! ### Disables and holds -/

theorem stable_isDisabled : Stable IsDisabled where
  later h _ := h
  disable _ := ⟨rfl, rfl⟩
  release h _ := by cases h.2
  hold _ h := by cases h.1
  extend _ h := by cases h.2

def NotBefore (deadline clock : Nat) (enabled : Bool) (hold : Option Nat) : Prop :=
  (enabled = true → deadline ≤ clock) ∧ ∀ stored, hold = some stored → deadline ≤ stored ∨ deadline ≤ clock

theorem stable_notBefore (deadline : Nat) : Stable (NotBefore deadline) where
  later h hle := by
    refine ⟨fun henabled => le_trans (h.1 henabled) hle, fun stored hstored => ?_⟩
    exact (h.2 stored hstored).imp_right fun hclock => le_trans hclock hle
  disable _ := ⟨by simp, by simp⟩
  release h hle := by
    refine ⟨fun _ => ?_, by simp⟩
    exact (h.2 _ rfl).elim (fun hstored => le_trans hstored hle) id
  hold _ h := ⟨by simp, fun _ _ => .inr (h.1 rfl)⟩
  extend _ h := by
    refine ⟨by simp, ?_⟩
    rintro stored ⟨rfl⟩
    exact (h.2 _ rfl).imp_left fun hstored => le_trans hstored (le_max_left _ _)

theorem isSigningEnabled_eq_true {w : World} (h : w.isSigningEnabled k = true) :
    w.running = true ∧ ∃ config, w.rows.lookup k = some config ∧ config.enabled = true := by
  unfold World.isSigningEnabled at h
  obtain ⟨hrun, hrow⟩ := Bool.and_eq_true_iff.mp h
  cases hlookup : w.rows.lookup k with
  | none => simp [hlookup] at hrow
  | some config => exact ⟨hrun, config, rfl, by simpa [hlookup] using hrow⟩

theorem kept_of_disabled {w' : World} (hrow : (w.rows.lookup pubkey).isSome = true)
    (hrows : w'.rows = publishEnabled pubkey false w.rows) (hwritten : w'.Written) :
    Kept IsDisabled pubkey w' := by
  obtain ⟨config, hlookup⟩ := Option.isSome_iff_exists.mp hrow
  have hdisabled : RowHas IsDisabled pubkey w'.clock w'.rows := by
    refine ⟨{ config with enabled := false, doppelgangerHoldUntil := none }, ?_, rfl, rfl⟩
    rw [hrows, publishEnabled, lookup_modifyRow, if_pos rfl, hlookup, Option.map_some]
  refine ⟨fun _ => hdisabled, ?_⟩
  rintro doc hdoc
  cases hwritten.symm.trans hdoc
  exact hdisabled.snapshotToml

theorem kept_of_held {stored : Nat} (hle : deadline ≤ stored)
    (hrow : RowHas (IsHeld stored) k 0 w.rows) (hfile : HeldInFile w.rows w.file) :
    Kept (NotBefore deadline) k w := by
  have hwait : ∀ rows, RowHas (IsHeld stored) k 0 rows → RowHas (NotBefore deadline) k w.clock rows := by
    rintro rows ⟨config, hlookup, henabled, hhold⟩
    refine ⟨config, hlookup, by simp [henabled], fun other hother => .inl ?_⟩
    cases hhold.symm.trans hother
    exact hle
  exact ⟨fun _ => hwait _ hrow, fun doc hdoc => hwait _ (hfile k stored doc hrow hdoc)⟩

theorem disable_kept {m : Steps World (Except ValidatorStoreError Unit)} {P : Rows → Prop} (h : Synced env w)
    (hm : Does P m w (Disabled env k w)) :
    Wp (whenRunning do return .ofUnit (← m)) w (fun _ => True) fun r w' =>
      r = .done → (w.rows.lookup k).isSome = true → Kept IsDisabled k w' := by
  unfold whenRunning
  simp only [wp_bind, wp_look]
  split
  next hrun =>
    apply Wp.bind (hm.mono (fun _ _ => trivial) fun _ _ => And.right)
    refine fun r w' hdisabled => wp_pure.mpr fun hdone hrow => ?_
    cases r with
    | error e => cases hdone
    | ok _ => exact kept_of_disabled hrow hdisabled.rows (hdisabled.written rfl hrow (h.path hrun))
  · simp

theorem hold_kept (h : Synced env w) (hq : env.Quarantines) :
    Wp ((Op.beginDoppelgangerHold k deadline).run env) w (fun _ => True) fun r w' =>
      r = .flag true → Kept (NotBefore deadline) k w' := by
  unfold Op.run whenRunning
  simp only [wp_bind, wp_look]
  split
  next hrun =>
    apply Wp.bind (beginDoppelgangerHold_does.mono (fun _ _ => trivial) fun _ _ => id)
    rintro r w' ⟨hmoves, hfile, -, hbegun⟩
    refine wp_pure.mpr fun hflag => ?_
    cases hbegun with
    | refused | failed => cases hflag
    | held stored hle _ _ _ _ hafter =>
      obtain ⟨config, hlookup, hconfig⟩ := Option.map_eq_some_iff.mp hafter
      obtain ⟨henabled, hhold⟩ := Prod.mk.inj hconfig
      exact kept_of_held hle ⟨config, hlookup, henabled, hhold⟩
        ((h.of_inFile hrun hmoves hfile).held (hmoves.running.trans hrun) hq)
  · simp

end

/-- **Disables and holds survive faults and restarts.** Take any run, and in it a disable of a row that is
there that returned `Ok`: in no later state, before or after any restart or crash and also between the steps
of an operation, is the row enabled, unless it was removed. Likewise for a hold that returned `Ok(true)`,
while the clock has not reached its deadline; here a file that cannot be written any more is assumed to leave
the boot path, moved or truncated. -/
theorem disables_and_holds_survive (env : Env) (file : ValidatorsFile) (clock : Nat)
    (before after : List Event) (op : Op) (pubkey : Pubkey) (hremoves : ∀ event ∈ after, ¬ event.Removes pubkey) :
    let w := (runEvents env before (World.initial file clock)).final
    let outcome := op.run env w
    let later := outcome.final :: (runEvents env after outcome.final).passed
    (op = .disable pubkey ∨ op = .disableSlashed pubkey → (w.rows.lookup pubkey).isSome = true →
      outcome.value = .done → ∀ w' ∈ later, w'.isSigningEnabled pubkey = false) ∧
    (∀ deadline, env.Quarantines → op = .beginDoppelgangerHold pubkey deadline →
      outcome.value = .flag true → ∀ w' ∈ later, w'.clock < deadline → w'.isSigningEnabled pubkey = false) := by
  intro w outcome later
  have hsynced : Synced env w := (runEvents_synced (.of_not_running rfl)).2
  have hlater : ∀ {Q}, Stable Q → Kept Q pubkey outcome.final → ∀ w' ∈ later, Kept Q pubkey w' := by
    intro Q hstable hkept w' hw'
    obtain rfl | hw' := List.mem_cons.mp hw'
    · exact hkept
    · exact (runEvents_kept hstable hkept hremoves).1 w' hw'
  refine ⟨fun hop hrow hdone w' hw' => ?_, fun deadline hq hop htrue w' hw' hclock => ?_⟩
  · have hdisabled : Kept IsDisabled pubkey outcome.final := by
      obtain rfl | rfl := hop
      · exact (disable_kept hsynced setEnabledDurable_does).2 hdone hrow
      · exact (disable_kept hsynced disableSlashed_does).2 hdone hrow
    have hkept := hlater stable_isDisabled hdisabled w' hw'
    refine Bool.eq_false_iff.mpr fun henabled => ?_
    obtain ⟨hrun, config, hlookup, htrue⟩ := isSigningEnabled_eq_true henabled
    obtain ⟨config', hlookup', hdisabled, -⟩ := hkept.rows hrun
    cases hlookup.symm.trans hlookup'
    rw [htrue] at hdisabled
    cases hdisabled
  · subst hop
    have hkept := hlater (stable_notBefore deadline) ((hold_kept hsynced hq).2 htrue) w' hw'
    refine Bool.eq_false_iff.mpr fun henabled => ?_
    obtain ⟨hrun, config, hlookup, htrue⟩ := isSigningEnabled_eq_true henabled
    obtain ⟨config', hlookup', hwait, -⟩ := hkept.rows hrun
    cases hlookup.symm.trans hlookup'
    exact Nat.not_le_of_lt hclock (hwait htrue)

def storedPubkey : Pubkey := ⟨List.replicate 48 9, rfl⟩

def enabledFile : ValidatorsFile := .document (snapshotToml ((∅ : Rows).insert storedPubkey .new))

def firstWriteFails : Env :=
  ⟨fun _ => none, fun n => if n = 0 then .preRename else .success, fun _ => .truncated⟩

/-- A hold that could not be written is answered for without a write the second time, and a disable that
could not be written is written the second time; both survive a save and a restart. -/
theorem disables_and_holds_survive_firstWriteFails :
    let after := [.call .saveConfig, .call (.restart [storedPubkey]), .tick 50]
    let start := World.initial enabledFile 100
    (let held := [.call (.restart [storedPubkey]), .call (.beginDoppelgangerHold storedPubkey 200)]
      let outcome := (Op.beginDoppelgangerHold storedPubkey 200).run firstWriteFails
        (runEvents firstWriteFails held start).final
      outcome.value = .flag true ∧
        ∀ w' ∈ outcome.final :: (runEvents firstWriteFails after outcome.final).passed,
          w'.clock < 200 → w'.isSigningEnabled storedPubkey = false) ∧
    (let disabled := [.call (.restart [storedPubkey]), .call (.disable storedPubkey)]
      let outcome := (Op.disable storedPubkey).run firstWriteFails (runEvents firstWriteFails disabled start).final
      outcome.value = .done ∧
        ∀ w' ∈ outcome.final :: (runEvents firstWriteFails after outcome.final).passed,
          w'.isSigningEnabled storedPubkey = false) := by
  have hremoves : ∀ event ∈ [Event.call .saveConfig, .call (.restart [storedPubkey]), .tick 50],
      ¬ event.Removes storedPubkey := by
    simp [Event.Removes, Op.Removes]
  have hquarantines : firstWriteFails.Quarantines := fun n => by simp [firstWriteFails]
  intro after start
  refine ⟨⟨by decide +kernel, ?_⟩, by decide +kernel, ?_⟩
  · exact (disables_and_holds_survive firstWriteFails enabledFile 100 _ after
      (.beginDoppelgangerHold storedPubkey 200) storedPubkey hremoves).2 200 hquarantines rfl
      (by decide +kernel)
  · exact (disables_and_holds_survive firstWriteFails enabledFile 100 _ after (.disable storedPubkey)
      storedPubkey hremoves).1 (.inl rfl) (by decide +kernel) (by decide +kernel)

end Rvc.ValidatorStore
