import Mathlib.Data.Fintype.Basic
import Rvc.KeymanagerAdapters.Admission

/-!
# Admissions of one key at a time

Any number of `KeyAdmissionService::admit` calls for one key, one access to a shared store at a time. The look at the
map and the changes of signer, map and row are not one critical section, and a call whose row is not written takes the
key out of signer and map whoever put it there. So a call that fails late undoes what another one has admitted. It
does not if no other call is past its look at the map (`Alone`); then signer and map have the key exactly if it was
there before or some call has admitted it.
-/

namespace Rvc.KeymanagerAdapters

open Function AdmitPhase

/-! ### Calls in any order -/

section

variable {ι : Type}

structure Admissions (ι : Type) where
  keys : Keys
  phase : ι → AdmitPhase

namespace Admissions

def begin (keys : Keys) : Admissions ι := ⟨keys, fun _ => .start⟩

def Present (keys : Keys) : Prop := keys.isLocal = true ∧ keys.inMap = true

def Admitted (s : Admissions ι) : Prop := ∃ i insertedRow, s.phase i = .done (.admitted insertedRow)

def Returned (s : Admissions ι) : Prop := ∀ i, ∃ outcome, s.phase i = .done outcome

variable [DecidableEq ι] (source : ι → AdmissionSource)

def step (s : Admissions ι) (i : ι) (fails : Bool) : Admissions ι where
  keys := ((s.phase i).next (source i) fails s.keys).2
  phase := update s.phase i ((s.phase i).next (source i) fails s.keys).1

def run (s : Admissions ι) (steps : List (ι × Bool)) : Admissions ι :=
  steps.foldl (fun s access => s.step source access.1 access.2) s

/-- Each access of a run meets a condition on the state it finds. -/
def Along (P : Admissions ι → ι → Bool → Prop) : Admissions ι → List (ι × Bool) → Prop
  | _, [] => True
  | s, access :: steps => P s access.1 access.2 ∧ Along P (s.step source access.1 access.2) steps

variable {source}

instance decidableAlong (P : Admissions ι → ι → Bool → Prop) [∀ s i fails, Decidable (P s i fails)] :
    (s : Admissions ι) → (steps : List (ι × Bool)) → Decidable (Along source P s steps)
  | _, [] => .isTrue trivial
  | s, access :: steps =>
    have := decidableAlong P (s.step source access.1 access.2) steps
    inferInstanceAs (Decidable (_ ∧ _))

theorem Along.keeps {P : Admissions ι → ι → Bool → Prop} {Inv : Admissions ι → Prop}
    (hstep : ∀ s i fails, P s i fails → Inv s → Inv (s.step source i fails)) {s : Admissions ι}
    {steps : List (ι × Bool)} (h : Along source P s steps) (hs : Inv s) : Inv (s.run source steps) := by
  induction steps generalizing s with
  | nil => exact hs
  | cons access steps ih => exact ih h.2 (hstep s access.1 access.2 h.1 hs)

end Admissions

end

/-! ### What a call has put where -/

namespace AdmitPhase

/-- Past the look at the map, and not returned or returned with `Admitted`. -/
def Counts : AdmitPhase → Prop
  | start | screened => False
  | done (.admitted _) => True
  | done _ => False
  | _ => True

instance : (phase : AdmitPhase) → Decidable phase.Counts
  | start | screened => .isFalse id
  | done (.admitted _) => .isTrue trivial
  | done .skippedDenylisted | done .alreadyPresent | done .failed => .isFalse id
  | absent | cleared | held _ | added _ | mapped _ | unstored | undoing | stored _ | revoking _ | unpublished _ =>
    .isTrue trivial

def Signs : AdmitPhase → Prop
  | added _ | mapped _ | stored _ | done (.admitted _) => True
  | _ => False

def Maps : AdmitPhase → Prop
  | mapped _ | stored _ | unstored | undoing | done (.admitted _) => True
  | _ => False

def Screened : AdmitPhase → Prop
  | start | done _ => False
  | _ => True

/-- The call takes back what it did because its row was not written. -/
def RollsBack : AdmitPhase → Prop
  | unstored | undoing => True
  | _ => False

/-- The call takes back what it did because of the denylist. -/
def Revokes : AdmitPhase → Prop
  | revoking _ | unpublished _ => True
  | _ => False

theorem Signs.counts {phase : AdmitPhase} (h : phase.Signs) : phase.Counts := by
  unfold Signs at h
  split at h <;> trivial

theorem RollsBack.maps {phase : AdmitPhase} (h : phase.RollsBack) : phase.Maps := by
  unfold RollsBack at h
  split at h <;> trivial

theorem Maps.counts {phase : AdmitPhase} (h : phase.Maps) : phase.Counts := by
  unfold Maps at h
  split at h <;> trivial

variable {source : AdmissionSource} {fails : Bool} {keys : Keys} {phase : AdmitPhase}

theorem next_denylisted : (phase.next source fails keys).2.denylisted = keys.denylisted := by
  cases phase <;> dsimp only [next] <;> (repeat' split) <;> rfl

theorem next_screened (hrevokes : ¬ phase.Revokes)
    (hscreened : phase.Screened → (source.enforceDenylist && keys.denylisted) = false) :
    ¬ (phase.next source fails keys).1.Revokes ∧
      ((phase.next source fails keys).1.Screened → (source.enforceDenylist && keys.denylisted) = false) := by
  cases phase with
  | start =>
    dsimp only [next]
    split
    · exact ⟨id, False.elim⟩
    · next h => exact ⟨id, fun _ => by simpa using h⟩
  | revoking insertedRow | unpublished insertedRow => exact absurd trivial hrevokes
  | done outcome => exact ⟨id, False.elim⟩
  | _ =>
    have hdenied := hscreened trivial
    simp only [next, hdenied, Bool.false_eq_true, if_false]
    repeat' split
    all_goals exact ⟨by simp [Revokes], fun _ => by trivial⟩

section

variable (source : AdmissionSource) (fails : Bool) (keys : Keys)

inductive Effect : AdmitPhase → AdmitPhase × Keys → Prop
  /-- Signer and map stay, and so does what is there for this call. -/
  | quiet {phase phase' : AdmitPhase} {keys' : Keys} (isLocal : keys'.isLocal = keys.isLocal)
      (inMap : keys'.inMap = keys.inMap) (maps : phase'.Maps ↔ phase.Maps) (signs : phase'.Signs → phase.Signs)
      (counts : phase'.Counts → phase.Counts ∨ keys.inMap = false) (rollsBack : ¬ phase'.RollsBack) :
      Effect phase (phase', keys')
  | add (insertedRow : Bool) : Effect (.held insertedRow) (.added insertedRow, { keys with isLocal := true })
  | map (insertedRow : Bool) : Effect (.added insertedRow) (.mapped insertedRow, { keys with inMap := true })
  | undo (insertedRow : Bool) (holds : source.holds = false) (hasRow : keys.hasRow = false)
      (hfails : fails = true) : Effect (.mapped insertedRow) (.unstored, keys)
  | drop : Effect .unstored (.undoing, { keys with isLocal := false })
  | unmap : Effect .undoing (.done .failed, { keys with inMap := false })

end

theorem next_effect (hrevokes : ¬ phase.Revokes)
    (hscreened : phase.Screened → (source.enforceDenylist && keys.denylisted) = false) :
    Effect source fails keys phase (phase.next source fails keys) := by
  cases phase with
  | held insertedRow => exact .add insertedRow
  | added insertedRow => exact .map insertedRow
  | unstored => exact .drop
  | undoing => exact .unmap
  | revoking insertedRow | unpublished insertedRow => exact absurd trivial hrevokes
  | mapped insertedRow =>
    cases hholds : source.holds with
    | true =>
      simp only [next, hholds, if_true]
      exact .quiet rfl rfl .rfl id .inl id
    | false =>
      simp only [next, hholds, Bool.false_eq_true, if_false]
      split
      · exact .quiet rfl rfl .rfl id .inl id
      · next hrow =>
        split
        · next hfails => exact .undo insertedRow hholds (Bool.not_eq_true _ ▸ hrow) hfails
        · exact .quiet rfl rfl .rfl id .inl id
  | stored insertedRow =>
    simp only [next, hscreened trivial, Bool.false_eq_true, if_false]
    exact .quiet rfl rfl .rfl id .inl id
  | screened =>
    dsimp only [next]
    split
    · exact .quiet rfl rfl .rfl id False.elim id
    · next h => exact .quiet rfl rfl .rfl id (fun _ => .inr (by simpa using h)) id
  | done outcome => exact .quiet rfl rfl .rfl id .inl id
  | _ =>
    dsimp only [next]
    repeat' split
    all_goals exact .quiet rfl rfl .rfl id (fun h => .inl (by first | exact h | exact h.elim)) id

end AdmitPhase

namespace Admissions

variable {ι : Type} {source : ι → AdmissionSource}

/-- A call that rolls back because its row is not written finds no other call past its look at the map. -/
def Alone (source : ι → AdmissionSource) (s : Admissions ι) (i : ι) (fails : Bool) : Prop :=
  ∀ insertedRow, s.phase i = .mapped insertedRow → (source i).holds = false → s.keys.hasRow = false → fails = true →
    ∀ j, j ≠ i → ¬ (s.phase j).Counts

instance [Fintype ι] [DecidableEq ι] (s : Admissions ι) (i : ι) (fails : Bool) : Decidable (Alone source s i fails) :=
  inferInstanceAs (Decidable (∀ _, _ → _ → _ → _ → ∀ j, j ≠ i → ¬ _))

/-- The invariant of runs that began with the key not in the map. -/
structure Inv (source : ι → AdmissionSource) (s : Admissions ι) : Prop where
  inMap : s.keys.inMap = true ↔ ∃ i, (s.phase i).Maps
  isLocal : ∀ i, (s.phase i).Signs → s.keys.isLocal = true
  rollsBack : ∀ i, (s.phase i).RollsBack → ∀ j, j ≠ i → ¬ (s.phase j).Counts
  screened : ∀ i, (s.phase i).Screened → ((source i).enforceDenylist && s.keys.denylisted) = false
  revokes : ∀ i, ¬ (s.phase i).Revokes

theorem inv_begin {keys : Keys} (h : keys.inMap = false) : Inv source (begin keys : Admissions ι) where
  inMap := ⟨fun hmap => absurd (hmap.symm.trans h) nofun, fun ⟨_, hmaps⟩ => hmaps.elim⟩
  isLocal _ hsigns := hsigns.elim
  rollsBack _ hback := hback.elim
  screened _ hscreened := hscreened.elim
  revokes _ := id

section

variable [DecidableEq ι] {s : Admissions ι} {i : ι} {fails : Bool} {phase : AdmitPhase} {keys : Keys}

omit [DecidableEq ι] in
theorem Inv.not_rollsBack (h : Inv source s) (hcounts : (s.phase i).Counts) {j : ι} (hne : j ≠ i) :
    ¬ (s.phase j).RollsBack :=
  fun hback => h.rollsBack j hback i hne.symm hcounts

theorem exists_maps_update (hmaps : phase.Maps ↔ (s.phase i).Maps) :
    (∃ j, (update s.phase i phase j).Maps) ↔ ∃ j, (s.phase j).Maps := by
  refine exists_congr ((forall_update_iff s.phase fun j phase => phase.Maps ↔ (s.phase j).Maps).mpr ?_)
  exact ⟨hmaps, fun _ _ => .rfl⟩

theorem Inv.isLocal_update (h : Inv source s) {isLocal : Bool} (hself : phase.Signs → isLocal = true)
    (hothers : ∀ j, j ≠ i → (s.phase j).Signs → s.keys.isLocal = true → isLocal = true) (j : ι) :
    (update s.phase i phase j).Signs → isLocal = true :=
  (forall_update_iff s.phase fun _ phase => phase.Signs → isLocal = true).mpr
    ⟨hself, fun j hj hsigns => hothers j hj hsigns (h.isLocal j hsigns)⟩ j

theorem Inv.rollsBack_update (h : Inv source s) (hself : phase.RollsBack → ∀ k, k ≠ i → ¬ (s.phase k).Counts)
    (hcounts : phase.Counts → ∀ j, j ≠ i → ¬ (s.phase j).RollsBack) (j : ι)
    (hj : (update s.phase i phase j).RollsBack) (k : ι) (hk : k ≠ j) :
    ¬ (update s.phase i phase k).Counts := by
  by_cases hji : j = i
  · subst hji
    rw [update_of_ne hk]
    rw [update_self] at hj
    exact hself hj k hk
  rw [update_of_ne hji] at hj
  by_cases hki : k = i
  · subst hki
    rw [update_self]
    exact fun hcount => hcounts hcount j hji hj
  · rw [update_of_ne hki]
    exact h.rollsBack j hj k hk

theorem Inv.effect (h : Inv source s) (halone : Alone source s i fails)
    (heffect : AdmitPhase.Effect (source i) fails s.keys (s.phase i) (phase, keys)) :
    (keys.inMap = true ↔ ∃ j, (update s.phase i phase j).Maps) ∧
      (∀ j, (update s.phase i phase j).Signs → keys.isLocal = true) ∧
      ∀ j, (update s.phase i phase j).RollsBack →
        ∀ k, k ≠ j → ¬ (update s.phase i phase k).Counts := by
  generalize hphase : s.phase i = before at heffect
  have hmaps (hsame : phase.Maps ↔ before.Maps) : s.keys.inMap = true ↔ ∃ j, (update s.phase i phase j).Maps := by
    rw [exists_maps_update (by rw [hphase, hsame]), h.inMap]
  have hnone (hcounts : before.Counts) : ∀ j, j ≠ i → ¬ (s.phase j).RollsBack :=
    fun _ => h.not_rollsBack (hphase ▸ hcounts)
  have hothers (hback : before.RollsBack) := h.rollsBack i (hphase ▸ hback)
  cases heffect with
  | quiet hlocal hmap hsame hsigns hcounts hback =>
    refine ⟨hmap ▸ hmaps hsame, h.isLocal_update (fun hself => ?_) fun _ _ _ hold => hlocal.trans hold,
      h.rollsBack_update (absurd · hback) fun hcount => ?_⟩
    · exact hlocal.trans (h.isLocal i (hphase ▸ hsigns hself))
    · rcases hcounts hcount with hold | hfree
      · exact hnone hold
      · -- the map has the key as long as a rollback is not through
        intro j _ hj
        exact absurd (h.inMap.mpr ⟨j, hj.maps⟩) (by simp [hfree])
  | add insertedRow =>
    exact ⟨hmaps .rfl, fun _ _ => rfl, h.rollsBack_update False.elim fun _ => hnone trivial⟩
  | map insertedRow =>
    refine ⟨⟨fun _ => ⟨i, by rw [update_self]; trivial⟩, fun _ => rfl⟩,
      h.isLocal_update (fun _ => ?_) fun _ _ _ => id, h.rollsBack_update False.elim fun _ => hnone trivial⟩
    exact h.isLocal i (by rw [hphase]; trivial)
  | undo insertedRow hholds hrow hfails =>
    have halone := halone insertedRow hphase hholds hrow hfails
    exact ⟨hmaps .rfl, h.isLocal_update False.elim fun _ _ _ => id,
      h.rollsBack_update (fun _ => halone) fun _ => hnone trivial⟩
  | drop =>
    exact ⟨hmaps .rfl, h.isLocal_update False.elim fun j hj hsigns _ => absurd hsigns.counts (hothers trivial j hj),
      h.rollsBack_update (fun _ => hothers trivial) fun _ => hnone trivial⟩
  | unmap =>
    refine ⟨⟨fun hmap => absurd hmap nofun, fun hmapped => ?_⟩,
      h.isLocal_update False.elim fun j hj hsigns _ => absurd hsigns.counts (hothers trivial j hj),
      h.rollsBack_update False.elim False.elim⟩
    obtain hself | ⟨j, hj, hmaps⟩ := (exists_update_iff s.phase fun _ phase => phase.Maps).mp hmapped
    · exact hself.elim
    · exact absurd hmaps.counts (hothers trivial j hj)

theorem Inv.step (h : Inv source s) (halone : Alone source s i fails) : Inv source (s.step source i fails) := by
  obtain ⟨hrevokes, hscreened⟩ : ¬ ((s.phase i).next (source i) fails s.keys).1.Revokes ∧
        (((s.phase i).next (source i) fails s.keys).1.Screened →
          ((source i).enforceDenylist && s.keys.denylisted) = false) :=
    next_screened (h.revokes i) (h.screened i)
  obtain ⟨hmap, hlocal, hback⟩ := h.effect halone (next_effect (h.revokes i) (h.screened i))
  refine ⟨hmap, hlocal, hback, ?_, ?_⟩
  · rw [Admissions.step, next_denylisted]
    exact (forall_update_iff s.phase fun j phase => phase.Screened → ((source j).enforceDenylist && _) = false).mpr
      ⟨hscreened, fun j _ => h.screened j⟩
  · exact (forall_update_iff s.phase fun _ phase => ¬ phase.Revokes).mpr ⟨hrevokes, fun j _ => h.revokes j⟩

/-! ### Every run -/

/-- The invariant of runs that began with the key in the map: no call passes its look at it. -/
structure Idle (keys : Keys) (s : Admissions ι) : Prop where
  keys : s.keys = keys
  phase : ∀ i, s.phase i = .start ∨ s.phase i = .screened ∨ s.phase i = .done .skippedDenylisted ∨
    s.phase i = .done .alreadyPresent

theorem Idle.step {before : Keys} (hmap : before.inMap = true) (h : Idle before s) :
    Idle before (s.step source i fails) := by
  have hnext : ((s.phase i).next (source i) fails s.keys).2 = s.keys ∧
      (((s.phase i).next (source i) fails s.keys).1 = .screened ∨
        ((s.phase i).next (source i) fails s.keys).1 = .done .skippedDenylisted ∨
        ((s.phase i).next (source i) fails s.keys).1 = .done .alreadyPresent) := by
    rcases h.phase i with hi | hi | hi | hi
    · rw [hi]
      dsimp only [next]
      split <;> simp
    · rw [hi]
      simp [next, h.keys, hmap]
    · rw [hi]
      simp [next]
    · rw [hi]
      simp [next]
  refine ⟨hnext.1.trans h.keys, (forall_update_iff s.phase fun _ phase => phase = .start ∨ phase = .screened ∨
    phase = .done .skippedDenylisted ∨ phase = .done .alreadyPresent).mpr ?_⟩
  exact ⟨.inr hnext.2, fun j _ => h.phase j⟩

/-- Any number of calls in any order, of which none rolls back while another one is past its look at the map: a key
that is present before or that a call has admitted is in signer and map at every time, and when all calls have
returned it is there only then. -/
theorem admissions_agree (before : Keys) (steps : List (ι × Bool))
    (halone : Along source (Alone source) (begin before) steps) :
    (Present before ∨ ((begin before : Admissions ι).run source steps).Admitted →
      Present ((begin before : Admissions ι).run source steps).keys) ∧
    (((begin before : Admissions ι).run source steps).Returned →
      (Present ((begin before : Admissions ι).run source steps).keys ↔
        Present before ∨ ((begin before : Admissions ι).run source steps).Admitted)) := by
  cases hmap : before.inMap with
  | true =>
    have hidle : Idle before ((begin before : Admissions ι).run source steps) :=
      halone.keeps (fun s i fails _ h => h.step hmap) ⟨rfl, fun _ => .inl rfl⟩
    have hnever : ¬ ((begin before : Admissions ι).run source steps).Admitted := by
      rintro ⟨i, insertedRow, hi⟩
      have := hidle.phase i
      rw [hi] at this
      simp at this
    rw [hidle.keys]
    exact ⟨fun h => h.resolve_right hnever, fun _ => (or_iff_left hnever).symm⟩
  | false =>
    have hinv := halone.keeps (fun s i fails hcall (h : Inv source s) => h.step hcall) (inv_begin hmap)
    have hbefore : ¬ Present before := fun h => absurd (hmap.symm.trans h.2) nofun
    have hadmitted : ((begin before : Admissions ι).run source steps).Admitted →
        Present ((begin before : Admissions ι).run source steps).keys := by
      rintro ⟨i, insertedRow, hi⟩
      exact ⟨hinv.isLocal i (by rw [hi]; trivial), hinv.inMap.mpr ⟨i, by rw [hi]; trivial⟩⟩
    refine ⟨fun h => hadmitted (h.resolve_left hbefore), fun hreturned => ⟨fun h => .inr ?_, fun h => ?_⟩⟩
    · obtain ⟨i, hi⟩ := hinv.inMap.mp h.2
      obtain ⟨outcome, houtcome⟩ := hreturned i
      rw [houtcome] at hi
      cases outcome with
      | admitted insertedRow => exact ⟨i, insertedRow, houtcome⟩
      | _ => exact hi.elim
    · exact hadmitted (h.resolve_left hbefore)

end

/-- One refresh fails for itself; the next one admits the key. -/
def oneAfterTheOther : List (Bool × Bool) :=
  List.replicate 6 (false, false) ++ [(false, true), (false, false), (false, false)] ++ List.replicate 8 (true, false)

theorem admissions_agree_oneAfterTheOther :
    Along (fun _ => .rawSecret) (Alone fun _ => .rawSecret) (begin (.boot false false false false)) oneAfterTheOther ∧
      Present ((begin (.boot false false false false)).run (fun _ : Bool => .rawSecret) oneAfterTheOther).keys := by
  have halone : Along (fun _ => .rawSecret) (Alone fun _ => .rawSecret) (begin (.boot false false false false))
      oneAfterTheOther := by decide +kernel
  exact ⟨halone, (admissions_agree _ _ halone).1 (.inr ⟨true, true, by decide⟩)⟩

/-- Two refreshes look at the map before either has put the key there. The first one's row is not written while there
is none; it rolls back after the second one has written the row and returned. -/
def lateRollback : List (Bool × Bool) :=
  List.replicate 2 (true, false) ++ List.replicate 6 (false, false) ++ List.replicate 4 (true, false) ++
    [(true, true)] ++ List.replicate 2 (false, false) ++ List.replicate 2 (true, false)

/-- The second refresh has returned `Admitted`, and the key is in neither signer nor map. -/
theorem admitted_key_removed :
    ((begin (.boot false false false false)).run (fun _ : Bool => .rawSecret) lateRollback).phase false =
        .done (.admitted true) ∧
      ((begin (.boot false false false false)).run (fun _ : Bool => .rawSecret) lateRollback).phase true =
        .done .failed ∧
      ((begin (.boot false false false false)).run (fun _ : Bool => .rawSecret) lateRollback).keys =
        .boot false false true false := by
  decide

end Admissions

end Rvc.KeymanagerAdapters
