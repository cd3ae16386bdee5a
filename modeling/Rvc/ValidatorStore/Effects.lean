import Rvc.ValidatorStore.Restart

/-!
# What the operations do

An operation of a running process publishes at most one change of the rows, and writes the rows as they are before or
after it (`Moves`). For each operation one statement (`Does`) says which change that may be, which answer goes with it
and whether the file ends up in step with the rows (`InFile`). What the process keeps follows from these alone.
-/

namespace Rvc.ValidatorStore

open Rvc.Lib Rvc.Lib.Steps Option AList Nat

/-! ### Rows -/

theorem lookup_modifyRow (pubkey : Pubkey) (f : ValidatorConfig → ValidatorConfig) (rows : Rows) (k : Pubkey) :
    (modifyRow pubkey f rows).lookup k = if k = pubkey then (rows.lookup k).map f else rows.lookup k := by
  unfold modifyRow
  split
  next config hlookup =>
    by_cases hk : k = pubkey
    · subst hk
      rw [lookup_insert, if_pos rfl, hlookup, map_some]
    · rw [lookup_insert_ne hk, if_neg hk]
  next hlookup =>
    by_cases hk : k = pubkey
    · subst hk
      rw [if_pos rfl, hlookup, map_none]
    · rw [if_neg hk]

def RowHas (Q : Nat → Bool → Option Nat → Prop) (k : Pubkey) (clock : Nat) (rows : Rows) : Prop :=
  ∃ config, rows.lookup k = some config ∧ Q clock config.enabled config.doppelgangerHoldUntil

def IsHeld (deadline : Nat) (_clock : Nat) (enabled : Bool) (hold : Option Nat) : Prop :=
  enabled = false ∧ hold = some deadline

def IsDisabled (_clock : Nat) (enabled : Bool) (hold : Option Nat) : Prop := enabled = false ∧ hold = none

/-- What the row of a key says about signing: whether it is enabled, and its hold. -/
def standing (rows : Rows) (k : Pubkey) : Option (Bool × Option Nat) :=
  (rows.lookup k).map fun config => (config.enabled, config.doppelgangerHoldUntil)

theorem standing_modifyRow {f : ValidatorConfig → ValidatorConfig} {value : Bool × Option Nat}
    (hf : ∀ config, ((f config).enabled, (f config).doppelgangerHoldUntil) = value) (pubkey : Pubkey) (rows : Rows)
    (k : Pubkey) : standing (modifyRow pubkey f rows) k =
      if k = pubkey then (standing rows k).map fun _ => value else standing rows k := by
  rw [standing, lookup_modifyRow]
  split
  · simp [standing, Function.comp_def, hf]
  · rfl

theorem standing_publishEnabled (pubkey : Pubkey) (enabled : Bool) (rows : Rows) (k : Pubkey) :
    standing (publishEnabled pubkey enabled rows) k =
      if k = pubkey then (standing rows k).map fun _ => (enabled, none) else standing rows k := by
  exact standing_modifyRow (by simp) pubkey rows k

theorem standing_publishDoppelgangerHold (pubkey : Pubkey) (untilUnix : Nat) (rows : Rows) (k : Pubkey) :
    standing (publishDoppelgangerHold pubkey untilUnix rows) k =
      if k = pubkey then (standing rows k).map fun _ => (false, some untilUnix) else standing rows k := by
  exact standing_modifyRow (by simp) pubkey rows k

theorem standing_insert (pubkey : Pubkey) (config : ValidatorConfig) (rows : Rows) (k : Pubkey) :
    standing (rows.insert pubkey config) k =
      if k = pubkey then some (config.enabled, config.doppelgangerHoldUntil) else standing rows k := by
  by_cases hk : k = pubkey
  · subst hk
    rw [if_pos rfl, standing, lookup_insert, map_some]
  · rw [if_neg hk, standing, lookup_insert_ne hk, standing]

theorem standing_erase_ne {pubkey k : Pubkey} (hk : k ≠ pubkey) (rows : Rows) :
    standing (rows.erase pubkey) k = standing rows k := by
  rw [standing, lookup_erase_ne hk, standing]

theorem publishEnabled_of_absent {pubkey : Pubkey} {rows : Rows} (h : rows.lookup pubkey = none)
    (enabled : Bool) : publishEnabled pubkey enabled rows = rows := by
  rw [publishEnabled, modifyRow, h]

theorem RowHas.of_publishDisabled {pubkey k : Pubkey} {deadline : Nat} {rows : Rows}
    (h : RowHas (IsHeld deadline) k 0 (publishEnabled pubkey false rows)) : RowHas (IsHeld deadline) k 0 rows := by
  obtain ⟨config, hlookup, hheld⟩ := h
  rw [publishEnabled, lookup_modifyRow] at hlookup
  split at hlookup
  · obtain ⟨_, -, rfl⟩ := map_eq_some_iff.mp hlookup
    cases hheld.2
  · exact ⟨config, hlookup, hheld⟩

/-! ### Moves -/

def Env.Quarantines (env : Env) : Prop := ∀ n, env.quarantine n ≠ .failed

def World.Written (w : World) : Prop := w.file = .document (snapshotToml w.rows)

def World.OffPath (env : Env) (w : World) : Prop := env.Quarantines → ∀ doc, w.file ≠ .document doc

/-- What a world may come to within an operation that may change its rows to some with `P`: the file is left alone,
or gone, or holds the rows before or after the change. -/
structure Moves (P : Rows → Prop) (w w' : World) : Prop where
  running : w'.running = w.running
  configPath : w'.configPath = w.configPath
  clock : w'.clock = w.clock
  rows : w'.rows = w.rows ∨ P w'.rows
  file : w'.file = w.file ∨
    ∀ doc, w'.file = .document doc → ∃ rows, (rows = w.rows ∨ P rows) ∧ doc = snapshotToml rows

abbrev Stays : World → World → Prop := Moves fun _ => False

/-- The file is as it was, with no hold that is new in the rows; or it holds the rows, or is off the boot path. -/
def InFile (env : Env) (w w' : World) : Prop :=
  (w'.file = w.file ∧ ∀ k deadline, RowHas (IsHeld deadline) k 0 w'.rows → RowHas (IsHeld deadline) k 0 w.rows) ∨
    (w.configPath = true → w'.Written ∨ w'.OffPath env)

def Does {α : Type} (P : Rows → Prop) (m : Steps World α) (w : World) (post : α → World → Prop) : Prop :=
  Wp m w (Moves P w) fun a w' => Moves P w w' ∧ post a w'

section

variable {P : Rows → Prop} {env : Env} {w w₁ w₂ : World} {α β : Type} {m : Steps World α} {post : α → World → Prop}

theorem Moves.refl (w : World) : Moves P w w := ⟨rfl, rfl, rfl, .inl rfl, .inl rfl⟩

theorem Stays.rows_eq (h : Stays w w₁) : w₁.rows = w.rows := h.rows.resolve_right id

open Stays

theorem Moves.trans (h : Moves P w w₁) (h' : Stays w₁ w₂) : Moves P w w₂ := by
  refine ⟨h'.running.trans h.running, h'.configPath.trans h.configPath, h'.clock.trans h.clock, ?_, ?_⟩
  · rw [rows_eq h']
    exact h.rows
  · rcases h'.file with heq | hdoc
    · rw [heq]
      exact h.file
    · refine .inr fun doc hfile => ?_
      obtain ⟨rows, hrows, rfl⟩ := hdoc doc hfile
      exact ⟨rows, by rw [hrows.resolve_right id]; exact h.rows, rfl⟩

theorem InFile.of_eq (hrows : w₁.rows = w.rows) (hfile : w₁.file = w.file) : InFile env w w₁ :=
  .inl ⟨hfile, fun _ _ h => hrows ▸ h⟩

theorem InFile.written (h : w₁.Written) : InFile env w w₁ := .inr fun _ => .inl h

theorem InFile.trans (hstays : Stays w w₁) (h : InFile env w w₁) (hstays' : Stays w₁ w₂) (h' : InFile env w₁ w₂) :
    InFile env w w₂ := by
  rcases h' with ⟨hfile, -⟩ | h'
  · rcases h with ⟨hfile', -⟩ | h
    · exact .of_eq ((rows_eq hstays').trans (rows_eq hstays)) (hfile.trans hfile')
    · refine .inr fun hpath => (h hpath).imp (fun hwritten => ?_) fun hoff hq => hfile ▸ hoff hq
      rw [World.Written, hfile, rows_eq hstays', hwritten]
  · exact .inr fun hpath => h' (hstays.configPath.trans hpath)

theorem Does.pure {a : α} (h : post a w) : Does P (pure a) w post := wp_pure.mpr ⟨.refl w, h⟩

theorem Does.imp {post' : α → World → Prop} (h : Does P m w post) (himp : ∀ a w', post a w' → post' a w') :
    Does P m w post' :=
  h.mono (fun _ => id) fun a w' hpost => ⟨hpost.1, himp a w' hpost.2⟩

theorem Does.bind {f : α → Steps World β} {mid : α → World → Prop} {post : β → World → Prop} (h : Does P m w mid)
    (hf : ∀ a w', Moves P w w' → mid a w' → Does (fun _ => False) (f a) w' post) : Does P (m >>= f) w post := by
  apply Wp.bind h
  rintro a w' ⟨hmoves, hmid⟩
  exact (hf a w' hmoves hmid).mono (fun _ => hmoves.trans) fun _ _ hpost => ⟨hmoves.trans hpost.1, hpost.2⟩

theorem Does.map {f : α → β} {post : World → Prop} (h : Does P m w fun _ => post) :
    Does P (do return f (← m)) w fun _ => post :=
  h.bind fun _ _ _ hpost => .pure hpost

theorem Does.publish {change : Rows → Rows} {f : Unit → Steps World α} (hP : P (change w.rows))
    (hf : Does (fun _ => False) (f ()) { w with rows := change w.rows } post) :
    Does P (ValidatorStore.publish change >>= f) w post := by
  have hmoves : Moves P w { w with rows := change w.rows } := ⟨rfl, rfl, rfl, .inr hP, .inl rfl⟩
  have hpublish : Does P (ValidatorStore.publish change) w fun _ w' => w' = { w with rows := change w.rows } :=
    wp_step.mpr ⟨hmoves, hmoves, rfl⟩
  refine hpublish.bind fun _ w' _ hw' => ?_
  rw [hw']
  exact hf

theorem does_look {f : World → Steps World α} : Does P (look >>= f) w post ↔ Does P (f w) w post := by
  simp [Does]

/-! ### Writes -/

def leaves (old new : ValidatorsFile) : Except AtomicWriteError Unit → ValidatorsFile
  | .error .preCommit => old
  | .error .postRename => new
  | .ok () => new

theorem writeTomlAtomic_does {rows : Rows} (hrows : rows = w.rows ∨ P rows) :
    Does P (writeTomlAtomic env (snapshotToml rows)) w fun r w' =>
      w'.rows = w.rows ∧ w'.file = leaves w.file (.document (snapshotToml rows)) r := by
  have hwrites : Moves P w { w with file := .document (snapshotToml rows), writes := w.writes + 1 } := by
    refine ⟨rfl, rfl, rfl, .inl rfl, .inr fun doc hdoc => ⟨rows, hrows, ?_⟩⟩
    exact (ValidatorsFile.document.inj hdoc).symm
  have hskips : Moves P w { w with writes := w.writes + 1 } := ⟨rfl, rfl, rfl, .inl rfl, .inl rfl⟩
  unfold Does writeTomlAtomic
  simp only [wp_bind, wp_look]
  split
  · simpa [leaves] using hwrites
  · simpa [leaves] using hskips
  · simpa [leaves] using hwrites

theorem quarantineValidatorsFile_does :
    Does (fun _ => False) (quarantineValidatorsFile env) w fun _ w' => w'.OffPath env := by
  have hgone : ∀ file : ValidatorsFile, (∀ doc, file ≠ .document doc) → ∀ n,
      Stays w { w with file := file, quarantines := n } := by
    intro file hfile n
    exact ⟨rfl, rfl, rfl, .inl rfl, .inr fun doc hdoc => absurd hdoc (hfile doc)⟩
  have hstays : ∀ n, Stays w { w with quarantines := n } := fun n => ⟨rfl, rfl, rfl, .inl rfl, .inl rfl⟩
  unfold Does quarantineValidatorsFile World.OffPath
  simp only [wp_bind, wp_look]
  split
  next hmissing => simpa [hmissing] using Moves.refl w
  · simpa using hgone .missing (by simp) _
  · simpa using hgone .empty (by simp) _
  next hfailed _ =>
    have hnever : ¬ env.Quarantines := fun hq => hq w.quarantines hfailed
    simpa [hnever] using hstays _

theorem commitLessSafe_does {rows : Rows} (hrows : P rows) :
    Does P (commitLessSafe env (snapshotToml rows) (snapshotToml w.rows)) w fun r w' => w'.rows = w.rows ∧
      (r = .ok () ∧ w'.file = .document (snapshotToml rows) ∨ (∃ e, r = .error e) ∧ InFile env w w') := by
  apply (writeTomlAtomic_does (.inr hrows)).bind
  rintro ((_ | _) | _) w₁ hmoves₁ ⟨hrows₁, hfile₁⟩
  · exact .pure ⟨hrows₁, .inr ⟨⟨_, rfl⟩, .of_eq hrows₁ hfile₁⟩⟩
  · dsimp only
    rw [← hrows₁]
    apply (writeTomlAtomic_does (.inl rfl)).bind
    rintro ((_ | _) | _) w₂ hmoves₂ ⟨hrows₂, hfile₂⟩
    · refine quarantineValidatorsFile_does.bind fun _ w₃ hmoves₃ hoff => .pure ⟨?_, .inr ⟨⟨_, rfl⟩, ?_⟩⟩
      · exact (rows_eq hmoves₃).trans hrows₂
      · exact .inr fun _ => .inr hoff
    all_goals exact .pure ⟨hrows₂, .inr ⟨⟨_, rfl⟩, .written (by rw [World.Written, hrows₂]; exact hfile₂)⟩⟩
  · exact .pure ⟨hrows₁, .inl ⟨rfl, hfile₁⟩⟩

theorem persistDisabledSnapshot_does :
    Does (fun _ => False) (persistDisabledSnapshot env) w fun r w' => InFile env w w' ∧ (r = .ok () → w'.Written) := by
  unfold persistDisabledSnapshot commitSnapshot
  rw [does_look]
  split
  · exact .pure ⟨.of_eq rfl rfl, nofun⟩
  · apply (writeTomlAtomic_does (.inl rfl)).bind
    rintro ((_ | _) | _) w' - ⟨hrows, hfile⟩
    · exact .pure ⟨.of_eq hrows hfile, nofun⟩
    all_goals
      have hwritten : w'.Written := by rw [World.Written, hrows]; exact hfile
      exact .pure ⟨.written hwritten, fun _ => hwritten⟩

theorem persistAttempts_does {last : ValidatorStoreError} {n : Nat} :
    Does (fun _ => False) (persistAttempts env last n) w fun r w' => InFile env w w' ∧ (r = .ok () → w'.Written) := by
  induction n generalizing last w with
  | zero => exact .pure ⟨.of_eq rfl rfl, nofun⟩
  | succ n ih =>
    apply persistDisabledSnapshot_does.bind
    rintro (e | _) w₁ hstays₁ ⟨hfile₁, hok₁⟩
    · exact ih.mono (fun _ => id) fun _ w₂ ⟨hstays₂, hfile₂, hok₂⟩ =>
        ⟨hstays₂, InFile.trans hstays₁ hfile₁ hstays₂ hfile₂, hok₂⟩
    · exact .pure ⟨hfile₁, hok₁⟩

theorem quarantineHeldValidatorsFile_does : Does (fun _ => False) (quarantineHeldValidatorsFile env) w
      fun _ w' => InFile env w w' ∧ (w.configPath = true → w'.OffPath env) := by
  unfold quarantineHeldValidatorsFile
  rw [does_look]
  split
  next hpath => exact .pure ⟨.of_eq rfl rfl, fun hset => by simp [hset] at hpath⟩
  · exact quarantineValidatorsFile_does.imp fun _ _ hoff => ⟨.inr fun _ => .inr hoff, fun _ => hoff⟩

theorem quarantineIfHeld_does {config : ValidatorConfig} :
    Does (fun _ => False) (quarantineIfHeld env config) w fun _ => InFile env w := by
  unfold quarantineIfHeld
  split
  · exact quarantineHeldValidatorsFile_does.imp fun _ _ => And.left
  · exact .pure (.of_eq rfl rfl)

/-- A change that is written first is in the file when it is published, and leaves nothing behind when it is not. -/
theorem persistThenPublish_does {change : Rows → Rows} {value : α} (hP : P (change w.rows)) :
    Does P (persistThenPublish env change value) w fun r w' => InFile env w w' ∧
      (r = .ok value ∧ w'.rows = change w.rows ∨ (∃ e, r = .error e) ∧ w'.rows = w.rows) := by
  unfold persistThenPublish
  rw [does_look]
  split
  next hpath =>
    refine Does.publish hP (.pure ⟨.inr fun hset => ?_, .inl ⟨rfl, rfl⟩⟩)
    simp [hset] at hpath
  · apply Wp.bind (commitLessSafe_does hP)
    rintro r w' ⟨hmoves, hrows, ⟨rfl, hfile⟩ | ⟨⟨e, rfl⟩, hfile⟩⟩
    · have hpublished : Moves P w { w' with rows := change w.rows } :=
        ⟨hmoves.running, hmoves.configPath, hmoves.clock, .inr hP, hmoves.file⟩
      have hwritten : World.Written { w' with rows := change w.rows } := hfile
      simpa [ValidatorStore.publish, hrows] using ⟨hpublished, InFile.written hwritten⟩
    · exact wp_pure.mpr ⟨hmoves, hfile, .inr ⟨⟨e, rfl⟩, hrows⟩⟩

theorem persistThenPublish_inFile {change : Rows → Rows} {value : α} (hP : P (change w.rows)) :
    Does P (persistThenPublish env change value) w fun _ => InFile env w :=
  (persistThenPublish_does hP).imp fun _ _ => And.left

/-! ### Operations -/

variable {pubkey : Pubkey} {untilUnix : Nat}

theorem addValidatorDurable_does {config : ValidatorConfig} :
    Does (fun rows => w.rows.lookup pubkey = none ∧ rows = w.rows.insert pubkey config)
      (addValidatorDurable env pubkey config) w fun _ => InFile env w := by
  unfold addValidatorDurable
  split
  · exact .pure (.of_eq rfl rfl)
  · rw [does_look]
    split
    · exact .pure (.of_eq rfl rfl)
    next habsent => exact persistThenPublish_inFile ⟨by simpa using habsent, rfl⟩

theorem removeValidatorDurable_does :
    Does (· = w.rows.erase pubkey) (removeValidatorDurable env pubkey) w fun _ => InFile env w := by
  unfold removeValidatorDurable
  rw [does_look]
  split
  · exact .pure (.of_eq rfl rfl)
  · exact persistThenPublish_inFile rfl

theorem setEnabledDurable_true_does :
    Does (· = publishEnabled pubkey true w.rows) (setEnabledDurable env pubkey true) w fun _ => InFile env w := by
  unfold setEnabledDurable persistSigningEnable
  rw [if_pos rfl, does_look]
  split
  · exact .pure (.of_eq rfl rfl)
  · exact persistThenPublish_inFile rfl

structure Disabled (env : Env) (pubkey : Pubkey) (w : World) (r : Except ValidatorStoreError Unit) (w' : World) :
    Prop where
  rows : w'.rows = publishEnabled pubkey false w.rows
  file : InFile env w w'
  written : r = .ok () → (w.rows.lookup pubkey).isSome = true → w.configPath = true → w'.Written

theorem Disabled.of_absent (h : w.rows.lookup pubkey = none) (r : Except ValidatorStoreError Unit) :
    Disabled env pubkey w r w :=
  ⟨(publishEnabled_of_absent h false).symm, .of_eq rfl rfl, by simp [h]⟩

theorem Disabled.of_stays {r : Except ValidatorStoreError Unit}
    (hstays : Stays { w with rows := publishEnabled pubkey false w.rows } w₁)
    (hfile : InFile env { w with rows := publishEnabled pubkey false w.rows } w₁)
    (hok : r = .ok () → w.configPath = true → w₁.Written) : Disabled env pubkey w r w₁ :=
  ⟨rows_eq hstays, hfile.imp_left fun h => ⟨h.1, fun k deadline hheld => (h.2 k deadline hheld).of_publishDisabled⟩,
    fun hr _ => hok hr⟩

theorem setEnabledDurable_does :
    Does (· = publishEnabled pubkey false w.rows) (setEnabledDurable env pubkey false) w (Disabled env pubkey w) := by
  have hdisable : Does (· = publishEnabled pubkey false w.rows) (persistSigningDisable env pubkey) w
      fun r => Disabled env pubkey w r.1 := by
    unfold persistSigningDisable
    rw [does_look]
    split
    next hnone => exact .pure (.of_absent hnone _)
    · refine Does.publish rfl ?_
      split
      next hpath => exact .pure (.of_stays (.refl _) (.of_eq rfl rfl) fun _ hset => by simp [hset] at hpath)
      · apply persistDisabledSnapshot_does.bind
        rintro (e | _) w₁ hstays₁ ⟨hfile₁, hok⟩
        · exact quarantineIfHeld_does.bind fun _ w₂ hstays₂ hfile₂ => .pure (.of_stays (hstays₁.trans hstays₂)
            (.trans hstays₁ hfile₁ hstays₂ hfile₂) nofun)
        · exact .pure (.of_stays hstays₁ hfile₁ fun hr _ => hok rfl)
  exact hdisable.bind fun _ _ _ h => .pure h

theorem disableSlashed_does :
    Does (· = publishEnabled pubkey false w.rows) (disableSlashed env pubkey) w (Disabled env pubkey w) := by
  unfold disableSlashed
  rw [does_look]
  split
  next hnone => exact .pure (.of_absent hnone _)
  · refine Does.publish rfl ?_
    split
    · exact persistDisabledSnapshot_does.mono (fun _ => id) fun _ _ ⟨hstays, hfile, hok⟩ =>
        ⟨hstays, .of_stays hstays hfile fun hr _ => hok hr⟩
    · apply persistAttempts_does.bind
      rintro (e | _) w₁ hstays₁ ⟨hfile₁, hok⟩
      · exact quarantineIfHeld_does.bind fun _ w₂ hstays₂ hfile₂ => .pure (.of_stays (hstays₁.trans hstays₂)
          (.trans hstays₁ hfile₁ hstays₂ hfile₂) nofun)
      · exact .pure (.of_stays hstays₁ hfile₁ fun hr _ => hok rfl)

theorem holdExisting_does (hP : P (publishDoppelgangerHold pubkey untilUnix w.rows)) :
    Does P (holdExisting env pubkey untilUnix) w fun r w' =>
      InFile env w w' ∧ r ≠ .ok false ∧ w'.rows = publishDoppelgangerHold pubkey untilUnix w.rows := by
  apply Does.publish hP
  rw [does_look]
  split
  next hpath => exact .pure ⟨.inr fun hset => by simp [hset] at hpath, nofun, rfl⟩
  · apply persistDisabledSnapshot_does.bind
    rintro (e | _) w₁ hstays₁ ⟨-, hok⟩
    · refine quarantineHeldValidatorsFile_does.bind fun _ w₂ hstays₂ hoff => .pure ⟨.inr fun hpath => ?_, nofun, ?_⟩
      · exact .inr (hoff.2 (hstays₁.configPath.trans hpath))
      · exact rows_eq (hstays₁.trans hstays₂)
    · exact .pure ⟨.written (hok rfl), nofun, rows_eq hstays₁⟩

/-- The rows with a hold that begins: on a new row, on an enabled one, or instead of an earlier one. -/
inductive BeginsHold (pubkey : Pubkey) (untilUnix : Nat) (rows : Rows) : Rows → Prop where
  | insert (h : rows.lookup pubkey = none) : BeginsHold pubkey untilUnix rows
      (rows.insert pubkey { ValidatorConfig.new with enabled := false, doppelgangerHoldUntil := some untilUnix })
  | enabled {config : ValidatorConfig} (h : rows.lookup pubkey = some config) (henabled : config.enabled = true) :
      BeginsHold pubkey untilUnix rows (publishDoppelgangerHold pubkey untilUnix rows)
  | extend {config : ValidatorConfig} {old : Nat} (h : rows.lookup pubkey = some config)
      (henabled : config.enabled = false) (hold : config.doppelgangerHoldUntil = some old) :
      BeginsHold pubkey untilUnix rows (publishDoppelgangerHold pubkey (max old untilUnix) rows)

/-- What a hold that begins may do to the standing of its key. -/
inductive Begun (untilUnix : Nat) (before after : Option (Bool × Option Nat)) :
    Except ValidatorStoreError Bool → Prop where
  | refused : before = some (false, none) → after = before → Begun untilUnix before after (.ok false)
  | failed (e : ValidatorStoreError) : before = none → after = none → Begun untilUnix before after (.error e)
  /-- The hold is published, written or not, and no earlier deadline moves forward. -/
  | held (stored : Nat) {r : Except ValidatorStoreError Bool} : untilUnix ≤ stored →
      (∀ old, before = some (false, some old) → old ≤ stored) → before ≠ some (false, none) →
      (before = none → r = .ok true) → r ≠ .ok false → after = some (false, some stored) →
      Begun untilUnix before after r

theorem beginDoppelgangerHold_does :
    Does (BeginsHold pubkey untilUnix w.rows) (beginDoppelgangerHold env pubkey untilUnix) w fun r w' =>
      InFile env w w' ∧ (∀ k, k ≠ pubkey → standing w'.rows k = standing w.rows k) ∧
        Begun untilUnix (standing w.rows pubkey) (standing w'.rows pubkey) r := by
  unfold beginDoppelgangerHold
  rw [does_look]
  split
  next existing hlookup =>
    have hstanding : standing w.rows pubkey = some (existing.enabled, existing.doppelgangerHoldUntil) := by
      rw [standing, hlookup, map_some]
    -- the hold is published on the row that is there
    have hhold : ∀ stored, BeginsHold pubkey untilUnix w.rows (publishDoppelgangerHold pubkey stored w.rows) →
        untilUnix ≤ stored → (∀ old, standing w.rows pubkey = some (false, some old) → old ≤ stored) →
        standing w.rows pubkey ≠ some (false, none) →
        Does (BeginsHold pubkey untilUnix w.rows) (holdExisting env pubkey stored) w fun r w' =>
          InFile env w w' ∧ (∀ k, k ≠ pubkey → standing w'.rows k = standing w.rows k) ∧
            Begun untilUnix (standing w.rows pubkey) (standing w'.rows pubkey) r := by
      intro stored hP hle hold hnot
      refine (holdExisting_does hP).imp fun r w' ⟨hfile, hr, hrows⟩ => ⟨hfile, fun k hk => ?_, ?_⟩
      · rw [hrows, standing_publishDoppelgangerHold, if_neg hk]
      · refine .held stored hle hold hnot (by simp [hstanding]) hr ?_
        rw [hrows, standing_publishDoppelgangerHold, if_pos rfl, hstanding, map_some]
    split
    next henabled hnone =>
      rw [henabled, hnone] at hstanding
      exact .pure ⟨.of_eq rfl rfl, fun _ _ => rfl, .refused hstanding rfl⟩
    next old henabled hsome =>
      rw [henabled, hsome] at hstanding
      have hold : ∀ old', standing w.rows pubkey = some (false, some old') → old' = old := by
        intro old' hstanding'
        simpa [hstanding] using hstanding'.symm
      have hnot : standing w.rows pubkey ≠ some (false, none) := by simp [hstanding]
      split
      next hmax =>
        refine .pure ⟨.of_eq rfl rfl, fun _ _ => rfl, .held old ?_ ?_ hnot (fun _ => rfl) nofun hstanding⟩
        · exact hmax ▸ le_max_right old untilUnix
        · exact fun old' hstanding' => le_of_eq (hold old' hstanding')
      · refine hhold _ (.extend hlookup henabled hsome) (le_max_right _ _) (fun old' hstanding' => ?_) hnot
        exact hold old' hstanding' ▸ le_max_left _ _
    next henabled =>
      rw [henabled] at hstanding
      exact hhold untilUnix (.enabled hlookup henabled) (le_refl _) (by simp [hstanding]) (by simp [hstanding])
  next hlookup =>
    have hstanding : standing w.rows pubkey = none := by rw [standing, hlookup, map_none]
    refine (persistThenPublish_does (.insert hlookup)).imp fun r w' ⟨hfile, hrows⟩ => ⟨hfile, ?_⟩
    rcases hrows with ⟨rfl, hrows⟩ | ⟨⟨e, rfl⟩, hrows⟩
    · refine ⟨fun k hk => ?_, .held untilUnix (le_refl _) ?_ ?_ (fun _ => rfl) nofun ?_⟩
      · rw [hrows, standing_insert, if_neg hk]
      · simp [hstanding]
      · simp [hstanding]
      · rw [hrows, standing_insert, if_pos rfl]
    · exact ⟨fun k _ => by rw [hrows], .failed e hstanding (by rw [hrows, hstanding])⟩

def ReleasesHold (pubkey : Pubkey) (w : World) (rows : Rows) : Prop :=
  rows = publishEnabled pubkey true w.rows ∧
    ∃ enabled stored, standing w.rows pubkey = some (enabled, some stored) ∧ stored ≤ w.clock

theorem releaseDoppelgangerHold_does :
    Does (ReleasesHold pubkey w) (releaseDoppelgangerHold env pubkey) w fun r w' => InFile env w w' ∧
      (r = .ok true ∧ ReleasesHold pubkey w w'.rows ∨ r ≠ .ok true ∧ w'.rows = w.rows) := by
  unfold releaseDoppelgangerHold
  rw [does_look]
  split
  · exact .pure ⟨.of_eq rfl rfl, .inr ⟨by simp, rfl⟩⟩
  next stored hhold =>
    split
    · exact .pure ⟨.of_eq rfl rfl, .inr ⟨by simp, rfl⟩⟩
    next hlt =>
      obtain ⟨config, hlookup, hconfig⟩ := bind_eq_some_iff.mp hhold
      have helapsed : ∃ enabled stored, standing w.rows pubkey = some (enabled, some stored) ∧ stored ≤ w.clock := by
        refine ⟨config.enabled, stored, ?_, Nat.le_of_not_lt hlt⟩
        rw [standing, hlookup, map_some, hconfig]
      refine (persistThenPublish_does ⟨rfl, helapsed⟩).imp fun r w' ⟨hfile, hrows⟩ => ⟨hfile, ?_⟩
      rcases hrows with ⟨rfl, hrows⟩ | ⟨⟨e, rfl⟩, hrows⟩
      · exact .inl ⟨rfl, hrows, helapsed⟩
      · exact .inr ⟨nofun, hrows⟩

theorem updateConfigDurable_does {update : ValidatorConfigUpdate} :
    Does (· = applyUpdateLocked pubkey update w.rows) (updateConfigDurable env pubkey update) w
      fun _ => InFile env w := by
  unfold updateConfigDurable
  split
  · exact .pure (.of_eq rfl rfl)
  · rw [does_look]
    split
    · exact .pure (.of_eq rfl rfl)
    · split
      · exact .pure (.of_eq rfl rfl)
      · exact persistThenPublish_inFile rfl

def Op.Allows (w : World) (rows : Rows) : Op → Prop
  | addValidatorDurable pubkey config => w.rows.lookup pubkey = none ∧ rows = w.rows.insert pubkey config
  | removeValidatorDurable pubkey => rows = w.rows.erase pubkey
  | disable pubkey => rows = publishEnabled pubkey false w.rows
  | disableSlashed pubkey => rows = publishEnabled pubkey false w.rows
  | beginDoppelgangerHold pubkey untilUnix => BeginsHold pubkey untilUnix w.rows rows
  | releaseDoppelgangerHold pubkey => ReleasesHold pubkey w rows
  | updateConfigDurable pubkey update => rows = applyUpdateLocked pubkey update w.rows
  | saveConfig => False
  | restart _ => False

theorem Op.run_of_not_running {op : Op} (hop : ∀ loaded, op ≠ .restart loaded) (hrun : w.running = false) :
    op.run env w = ⟨.failed, w, []⟩ := by
  cases op with
  | restart loaded => exact absurd rfl (hop loaded)
  | _ => simp [Op.run, whenRunning, Bind.bind, look, Pure.pure, hrun]

theorem whenRunning_does {m : Steps World Reply} {post : Reply → World → Prop} (hrun : w.running = true)
    (h : Does P m w post) : Does P (whenRunning m) w post := by
  rw [whenRunning, does_look, if_pos hrun]
  exact h

theorem Op.run_does {op : Op} (hop : ∀ loaded, op ≠ .restart loaded) (hrun : w.running = true) :
    Does (fun rows => op.Allows w rows) (op.run env) w fun _ => InFile env w := by
  cases op with
  | addValidatorDurable pubkey config => exact whenRunning_does hrun addValidatorDurable_does.map
  | removeValidatorDurable pubkey =>
    refine whenRunning_does hrun (removeValidatorDurable_does.bind fun r _ _ hfile => ?_)
    cases r with
    | error e | ok removed => exact .pure hfile
  | disable pubkey => exact whenRunning_does hrun (setEnabledDurable_does.imp fun _ _ => Disabled.file).map
  | disableSlashed pubkey => exact whenRunning_does hrun (disableSlashed_does.imp fun _ _ => Disabled.file).map
  | beginDoppelgangerHold pubkey untilUnix =>
    exact whenRunning_does hrun (beginDoppelgangerHold_does.imp fun _ _ => And.left).map
  | releaseDoppelgangerHold pubkey =>
    exact whenRunning_does hrun (releaseDoppelgangerHold_does.imp fun _ _ => And.left).map
  | updateConfigDurable pubkey update => exact whenRunning_does hrun updateConfigDurable_does.map
  | saveConfig => exact whenRunning_does hrun (persistDisabledSnapshot_does.imp fun _ _ => And.left).map
  | restart loaded => exact absurd rfl (hop loaded)

theorem Op.run_wp {op : Op} {inv I : World → Prop} (h : I w) (hboot : ∀ loaded, Wp (boot env loaded) w inv fun _ => I)
    (hmoves : w.running = true → ∀ w', Moves (fun rows => op.Allows w rows) w w' → inv w' ∧ (InFile env w w' → I w')) :
    Wp (op.run env) w inv fun _ => I := by
  by_cases hop : ∃ loaded, op = .restart loaded
  · obtain ⟨loaded, rfl⟩ := hop
    apply Wp.bind (hboot loaded)
    rintro (_ | _) w' h'
    · exact wp_pure.mpr h'
    · exact wp_pure.mpr h'
  · have hop : ∀ loaded, op ≠ .restart loaded := fun loaded heq => hop ⟨loaded, heq⟩
    cases hrun : w.running with
    | false =>
      rw [Wp, Op.run_of_not_running hop hrun]
      simpa using h
    | true =>
      exact (Op.run_does hop hrun).mono (fun w' hw' => (hmoves hrun w' hw').1)
        fun _ w' hw' => (hmoves hrun w' hw'.1).2 hw'.2

/-! ### Boots -/

section

variable {inv I : World → Prop}

theorem retryEnable_wp {n : Nat} (hstep : ∀ w, I w → Wp (setEnabledDurable env pubkey true) w inv fun _ => I)
    (h : I w) : Wp (retryEnable env pubkey n) w inv fun _ => I := by
  induction n generalizing w with
  | zero => exact wp_pure.mpr h
  | succ n ih =>
    apply Wp.bind (hstep w h)
    rintro (_ | _) w' h'
    · exact ih h'
    · exact wp_pure.mpr h'

theorem reconcileHolds_wp {holds : List (Pubkey × Nat)} {nowUnix : Nat}
    (hstep : ∀ pubkey deadline, (pubkey, deadline) ∈ holds → deadline ≤ nowUnix →
      ∀ w, I w → Wp (setEnabledDurable env pubkey true) w inv fun _ => I) (h : I w) :
    Wp (reconcileHolds env nowUnix holds) w inv fun _ => I := by
  induction holds generalizing w with
  | nil => exact wp_pure.mpr h
  | cons entry holds ih =>
    obtain ⟨pubkey, deadline⟩ := entry
    have ih := fun {w} => @ih w fun pubkey deadline hin => hstep pubkey deadline (List.mem_cons_of_mem _ hin)
    unfold reconcileHolds
    split
    next helapsed =>
      apply Wp.bind (retryEnable_wp (hstep pubkey deadline List.mem_cons_self helapsed) h)
      intro released w' h'
      exact Wp.bind (ih h') fun _ _ h'' => wp_pure.mpr h''
    · exact Wp.bind (ih h) fun _ _ h' => wp_pure.mpr h'

end

end

end Rvc.ValidatorStore
