import Rvc.ValidatorStore.Effects

/-!
# What a row keeps

A file stands for the rows a boot would load from it (`docRows`). A property of the row of one key is kept
when it holds of the row of the process and of the row in the file, whichever of them a restart ends up with
(`Kept`). If it is stable under what can happen to a row (`Stable`), every state of every run keeps it, those
between the steps of an operation included (`runEvents_kept`).
-/

namespace Rvc.ValidatorStore

open Rvc.Lib Rvc.Lib.Steps List AList Option

/-! ### Rows and documents -/

def docRows (doc : Document) : Rows := collectRows (doc.map fun v => (v.pubkey, v.config))

theorem lookup_docRows_snapshotToml (rows : Rows) (k : Pubkey) :
    (docRows (snapshotToml rows)).lookup k = rows.lookup k := by
  have hsame : docRows (snapshotToml rows) =
      rows.entries.foldl (fun rows entry => rows.insert entry.1 entry.2) ∅ := by
    rw [docRows, collectRows, snapshotToml, List.map_map, List.foldl_map]
    rfl
  rw [hsame, Table.lookup_foldl_insert _ rows.nodupKeys, AList.lookup_empty, Option.or_none]
  rfl

theorem collectRows_parseConfig {env : Env} {doc : Document} {configs : List (Pubkey × ValidatorConfig)}
    (h : parseConfig env doc = .ok configs) : collectRows configs = docRows doc := by
  have hconfigs : configs = doc.map fun v => (v.pubkey, v.config) := by
    have hall := mapM_eq_ok.mp h
    clear h
    induction hall with
    | nil => rfl
    | cons hv _ ih =>
      obtain ⟨_, -, hv⟩ := bind_eq_ok.mp hv
      rw [map_cons, ← ih, Except.ok.inj hv]
  rw [hconfigs, docRows]

variable {config : ValidatorConfig} {rows : Rows}

theorem lookup_registerLoadedValidators {loaded : List Pubkey} {k : Pubkey} (h : rows.lookup k = some config) :
    (registerLoadedValidators loaded rows).lookup k = some config := by
  unfold registerLoadedValidators
  induction loaded generalizing rows with
  | nil => exact h
  | cons pubkey loaded ih =>
    rw [foldl_cons]
    apply ih
    split
    · exact h
    next habsent =>
      have hne : k ≠ pubkey := by
        rintro rfl
        exact habsent (by rw [h]; rfl)
      rwa [lookup_insert_ne hne]

/-! ### Stable properties -/

/-- A property of a clock value, the `enabled` flag and the hold of a row that every change of the row
keeps. -/
structure Stable (Q : Nat → Bool → Option Nat → Prop) : Prop where
  later : ∀ {c c' enabled hold}, Q c enabled hold → c ≤ c' → Q c' enabled hold
  disable : ∀ {c enabled hold}, Q c enabled hold → Q c false none
  release : ∀ {c enabled deadline}, Q c enabled (some deadline) → deadline ≤ c → Q c true none
  hold : ∀ {c hold} deadline, Q c true hold → Q c false (some deadline)
  extend : ∀ {c old} deadline, Q c false (some old) → Q c false (some (max old deadline))

/-- The row of a key has the property in the process, if one runs, and in the file, if there is one. -/
structure Kept (Q : Nat → Bool → Option Nat → Prop) (k : Pubkey) (w : World) : Prop where
  rows : w.running = true → RowHas Q k w.clock w.rows
  file : ∀ doc, w.file = .document doc → RowHas Q k w.clock (docRows doc)

section

variable {Q : Nat → Bool → Option Nat → Prop} {k : Pubkey} {w : World} {env : Env}

theorem RowHas.snapshotToml {clock : Nat} (h : RowHas Q k clock rows) :
    RowHas Q k clock (docRows (snapshotToml rows)) := by
  obtain ⟨config, hlookup, hq⟩ := h
  exact ⟨config, by rw [lookup_docRows_snapshotToml, hlookup], hq⟩

variable {pubkey : Pubkey}

theorem RowHas.modifyRow {clock : Nat} (h : RowHas Q k clock rows) {f : ValidatorConfig → ValidatorConfig}
    (hf : ∀ config, k = pubkey → rows.lookup k = some config → Q clock config.enabled config.doppelgangerHoldUntil →
      Q clock (f config).enabled (f config).doppelgangerHoldUntil) :
    RowHas Q k clock (modifyRow pubkey f rows) := by
  obtain ⟨config, hlookup, hq⟩ := h
  by_cases hk : k = pubkey
  · exact ⟨f config, by rw [lookup_modifyRow, if_pos hk, hlookup, map_some], hf config hk hlookup hq⟩
  · exact ⟨config, by rw [lookup_modifyRow, if_neg hk, hlookup], hq⟩

theorem RowHas.insert_of_absent {clock : Nat} (h : RowHas Q k clock rows)
    (habsent : rows.lookup pubkey = none) (config : ValidatorConfig) :
    RowHas Q k clock (rows.insert pubkey config) := by
  obtain ⟨row, hlookup, hq⟩ := h
  have hne : k ≠ pubkey := by
    rintro rfl
    rw [habsent] at hlookup
    cases hlookup
  exact ⟨row, by rw [lookup_insert_ne hne, hlookup], hq⟩

theorem Kept.of_moves {P : Rows → Prop} {w' : World} (h : Kept Q k w) (hrun : w.running = true)
    (hP : ∀ rows, P rows → RowHas Q k w.clock rows) (hmoves : Moves P w w') : Kept Q k w' := by
  have hrows : ∀ rows, rows = w.rows ∨ P rows → RowHas Q k w.clock rows := by
    rintro rows (rfl | hrows)
    · exact h.rows hrun
    · exact hP rows hrows
  refine ⟨fun _ => ?_, fun doc hdoc => ?_⟩
  · rw [hmoves.clock]
    exact hrows _ hmoves.rows
  · rw [hmoves.clock]
    rcases hmoves.file with heq | hfile
    · exact h.file doc (heq ▸ hdoc)
    · obtain ⟨rows, hor, rfl⟩ := hfile doc hdoc
      exact (hrows rows hor).snapshotToml

theorem Kept.crashed (h : Kept Q k w) : Kept Q k w.crashed := by
  refine ⟨fun hrun => ?_, h.file⟩
  cases hrun

def Op.Removes (op : Op) (pubkey : Pubkey) : Prop := op = .removeValidatorDurable pubkey

variable (hstable : Stable Q)
include hstable

theorem Op.Allows.rowHas {op : Op} (hallows : op.Allows w rows) (hremoves : ¬ op.Removes k)
    (h : RowHas Q k w.clock w.rows) : RowHas Q k w.clock rows := by
  cases op with
  | addValidatorDurable pubkey config =>
    obtain ⟨habsent, rfl⟩ := hallows
    exact h.insert_of_absent habsent config
  | removeValidatorDurable pubkey =>
    obtain rfl : rows = _ := hallows
    obtain ⟨config, hlookup, hq⟩ := h
    have hne : k ≠ pubkey := by
      rintro rfl
      exact hremoves rfl
    exact ⟨config, by rw [lookup_erase_ne hne, hlookup], hq⟩
  | disable pubkey | disableSlashed pubkey =>
    obtain rfl : rows = _ := hallows
    exact h.modifyRow fun _ _ _ hq => hstable.disable hq
  | beginDoppelgangerHold pubkey untilUnix =>
    cases hallows with
    | insert habsent => exact h.insert_of_absent habsent _
    | enabled hlookup henabled =>
      apply h.modifyRow
      rintro config rfl hconfig hq
      rw [some.inj (hconfig.symm.trans hlookup), henabled] at hq
      exact hstable.hold _ hq
    | extend hlookup henabled hold =>
      apply h.modifyRow
      rintro config rfl hconfig hq
      rw [some.inj (hconfig.symm.trans hlookup), henabled, hold] at hq
      exact hstable.extend _ hq
  | releaseDoppelgangerHold pubkey =>
    obtain ⟨rfl, enabled, stored, hstanding, hle⟩ := hallows
    apply h.modifyRow
    rintro config rfl hconfig hq
    simp only [standing, hconfig, map_some, some.injEq, Prod.mk.injEq] at hstanding
    rw [hstanding.2] at hq
    exact hstable.release hq hle
  | updateConfigDurable pubkey update =>
    obtain rfl : rows = _ := hallows
    exact h.modifyRow fun _ _ _ hq => hq
  | saveConfig | restart loaded => exact hallows.elim

/-! ### Runs -/

theorem boot_kept {loaded : List Pubkey} (h : Kept Q k w) : Wp (boot env loaded) w (Kept Q k) fun _ => Kept Q k := by
  have hdown : Kept Q k { w with running := false, rows := ∅ } := h.crashed
  unfold boot
  simp only [wp_bind, wp_step, wp_look]
  refine ⟨hdown, ?_⟩
  split
  · simpa using hdown
  · simpa using hdown
  next doc hdoc =>
    split
    · simpa using hdown
    next configs hconfigs =>
      have hload : RowHas Q k w.clock (collectRows configs) := by
        rw [collectRows_parseConfig hconfigs]
        exact h.file doc hdoc
      have hregister : RowHas Q k w.clock (registerLoadedValidators loaded (collectRows configs)) := by
        obtain ⟨config, hlookup, hq⟩ := hload
        exact ⟨config, lookup_registerLoadedValidators hlookup, hq⟩
      have hbooted : Kept Q k { w with
          running := true, configPath := true
          rows := registerLoadedValidators loaded (collectRows configs) } := ⟨fun _ => hregister, h.file⟩
      simp only [wp_bind, wp_step, wp_look, ValidatorStore.publish, reconcileDoppelgangerHoldsAtBoot]
      refine ⟨⟨fun _ => hload, h.file⟩, hbooted, ?_⟩
      -- the loop enables the kept row only where its own hold has elapsed
      have hstep : ∀ pubkey deadline,
          (pubkey, deadline) ∈ holdsOf (registerLoadedValidators loaded (collectRows configs)) → deadline ≤ w.clock →
          ∀ w', Kept Q k w' ∧ w'.running = true ∧ w'.clock = w.clock → Wp (setEnabledDurable env pubkey true) w'
            (Kept Q k) fun _ w' => Kept Q k w' ∧ w'.running = true ∧ w'.clock = w.clock := by
        rintro pubkey deadline hin helapsed w' ⟨h', hrun', hclock⟩
        have hkept : ∀ w'', Moves (· = publishEnabled pubkey true w'.rows) w' w'' → Kept Q k w'' := by
          intro w'' hw''
          refine h'.of_moves hrun' ?_ hw''
          rintro rows rfl
          refine (h'.rows hrun').modifyRow ?_
          rintro _ rfl - -
          obtain ⟨⟨key, config⟩, hentry, hhold⟩ := mem_filterMap.mp hin
          simp only [map_eq_some_iff, Prod.mk.injEq] at hhold
          obtain ⟨_, hhold, rfl, rfl⟩ := hhold
          obtain ⟨config', hlookup, hq⟩ := hregister
          obtain rfl : config' = config := some.inj (hlookup.symm.trans (mem_lookup_iff.mpr hentry))
          rw [hhold] at hq
          rw [hclock]
          exact hstable.release hq helapsed
        exact setEnabledDurable_true_does.mono hkept fun _ w'' hw'' =>
          ⟨hkept w'' hw''.1, hw''.1.running.trans hrun', hw''.1.clock.trans hclock⟩
      exact (reconcileHolds_wp hstep ⟨hbooted, rfl, rfl⟩).mono (fun _ => id) fun _ _ hw' => wp_pure.mpr hw'.1

theorem Op.run_kept {op : Op} (h : Kept Q k w) (hremoves : ¬ op.Removes k) :
    Wp (op.run env) w (Kept Q k) fun _ => Kept Q k := by
  refine Op.run_wp h (fun _ => boot_kept hstable h) fun hrun w' hw' => ?_
  have hkept := h.of_moves hrun (fun _ hallows => hallows.rowHas hstable hremoves (h.rows hrun)) hw'
  exact ⟨hkept, fun _ => hkept⟩

def Event.Removes (event : Event) (pubkey : Pubkey) : Prop :=
  match event with
  | .call op => op.Removes pubkey
  | .crash op _ => op.Removes pubkey
  | .tick _ => False

theorem Event.run_kept {event : Event} (h : Kept Q k w) (hremoves : ¬ event.Removes k) :
    Wp (event.run env) w (Kept Q k) fun _ => Kept Q k := by
  cases event with
  | call op =>
    apply Wp.bind (Op.run_kept hstable h hremoves)
    rintro _ w' h'
    simpa using h'
  | crash op n =>
    apply Wp.bind ((Op.run_kept hstable h hremoves).cut h n)
    rintro _ w' h'
    exact wp_step.mpr ⟨h'.crashed, h'.crashed⟩
  | tick seconds =>
    have hlater : ∀ rows, RowHas Q k w.clock rows → RowHas Q k (w.clock + seconds) rows := by
      rintro rows ⟨config, hlookup, hq⟩
      exact ⟨config, hlookup, hstable.later hq (Nat.le_add_right _ _)⟩
    have hkept : Kept Q k { w with clock := w.clock + seconds } :=
      ⟨fun hrun => hlater _ (h.rows hrun), fun doc hdoc => hlater _ (h.file doc hdoc)⟩
    exact wp_step.mpr ⟨hkept, hkept⟩

/-- **Every state of every run keeps a stable property** of a row that is not removed. -/
theorem runEvents_kept {events : List Event} (h : Kept Q k w) (hremoves : ∀ event ∈ events, ¬ event.Removes k) :
    Wp (runEvents env events) w (Kept Q k) fun _ => Kept Q k := by
  induction events generalizing w with
  | nil => simpa [runEvents] using h
  | cons event events ih =>
    apply Wp.bind (Event.run_kept hstable h (hremoves event mem_cons_self))
    rintro _ w' h'
    exact ih h' fun other hin => hremoves other (mem_cons_of_mem _ hin)

end

end Rvc.ValidatorStore
