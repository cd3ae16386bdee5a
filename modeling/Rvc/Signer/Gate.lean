import Rvc.Signer.Safety

/-!
# The tasks of the gate

The tasks of `sign_slashable` as a part of larger systems. Each step has a label, by which the system around
the tasks says when the step can be taken: the enablement check that a task passes, the use of the database,
the result that is handed out. Here only signatures that are handed out count, so nothing is assumed of a
backend.

A task that may still hand out a signature, or has handed one out, keeps its row (`GateInv.keeps`). The
compensating delete of another task does not take it, because that task inserted the row while it held the
lock of the key (`GateInv.sole`). Nor does it take a row that another part of the system needs and whose root
is spelled otherwise.
-/

namespace Rvc.Signer

open Rvc.Lib Rvc.EthTypes Rvc.Slashing Rvc.Observability Function SlashableMessage

variable {M : Type} [SlashableMessage M]

/-! ### Steps -/

/-- What a step of the tasks has to do with the rest of the system. -/
inductive GateLabel where
  | quiet
  | enabled (i : Nat)
  | database
  | answered (i : Nat)
  deriving DecidableEq

structure Gate where
  tables : Tables
  locks : LockState
  phase : Nat → Phase

def Gate.new (tables : Tables) : Gate := ⟨tables, .new, fun _ => .waiting⟩

def Gate.setPhase (g : Gate) (i : Nat) (phase : Phase) : Gate :=
  { g with phase := update g.phase i phase }

section

variable (db : SlashingDb) (capacity : Nat) (requests : Nat → Request M)

inductive GateStep :
    GateLabel → Gate → Gate → Prop
  | lockTraffic {g : Gate} {locks : LockState} (h : LockStep capacity .quiet g.locks locks) :
      GateStep .quiet g { g with locks := locks }
  | lock {g : Gate} {locks : LockState} (i : Nat) (hphase : g.phase i = .waiting)
      (h : LockStep capacity (.acquired (requests i).pubkey) g.locks locks) :
      GateStep .quiet g { g.setPhase i .locked with locks := locks }
  | disabled {g : Gate} (i : Nat) (hphase : g.phase i = .locked) :
      GateStep .quiet g (g.setPhase i (.returned (.error .blockedByDoppelganger)))
  | resolve {g : Gate} (i : Nat) (hphase : g.phase i = .locked) (answer : TimeoutPolicy) :
      GateStep (.enabled i) g (g.setPhase i (.resolved ((requests i).policy.resolve answer)))
  /-- `check_gvr_before_lock` refuses, or the batch fails to persist: an error and no change. -/
  | reserveFailed {g : Gate} (i : Nat) {policy : TimeoutPolicy} (hphase : g.phase i = .resolved policy)
      (e : SlashingError) : GateStep .quiet g (g.setPhase i
        (.afterReserve (SlashableMessage.signingRoot (requests i).message) policy (.error e)))
  | reserve {g : Gate} (i : Nat) {policy : TimeoutPolicy} (hphase : g.phase i = .resolved policy) : GateStep .database g
        { g.setPhase i (.afterReserve (SlashableMessage.signingRoot (requests i).message) policy
            (Slashing.reserve db g.tables (requests i).spec).1) with
          tables := (Slashing.reserve db g.tables (requests i).spec).2 }
  | contact {g : Gate} (i : Nat) {policy : TimeoutPolicy} {reservation : CommittedReservation}
      (hphase : g.phase i = .reserved policy reservation) (answer : TimeoutPolicy) : GateStep .quiet g
        (g.setPhase i (.contacted ((requests i).policy.recheck policy answer) reservation false))
  | respond {g : Gate} (i : Nat) {policy : TimeoutPolicy} {reservation : CommittedReservation}
      {produced : Bool} (hphase : g.phase i = .contacted policy reservation produced) (result : SignResult) :
      GateStep .quiet g (g.setPhase i (.afterSign reservation (dispatchSign policy result)))
  | reconcile {g : Gate} (i : Nat) {reservation : CommittedReservation} {error : SigningGateError}
      (hphase : g.phase i = .reconciling reservation error) (faults : ReconcileFaults) : GateStep .database g
        { g.setPhase i (.returned (.error error)) with
          tables := (reconcileUnsigned faults ⟨g.tables, none⟩ reservation).2.committed }
  | release {g : Gate} {locks : LockState} (i : Nat) {result : Except SigningGateError (List UInt8)}
      (hphase : g.phase i = .returned result)
      (h : LockStep capacity (.released (requests i).pubkey) g.locks locks) :
      GateStep (.answered i) g { g.setPhase i (.finished result) with locks := locks }
  | panicked {g : Gate} (i : Nat) (hphase : (g.phase i).holdsLock = true) (reason : String) :
      GateStep .quiet g (g.setPhase i
        (.returned (.error (.signingFailed ((requests i).opName ++ " task panicked: " ++ reason)))))

end

theorem GateStep.tables_eq {db : SlashingDb} {capacity : Nat} {requests : Nat → Request M}
    {label : GateLabel} {g g' : Gate} (h : GateStep db capacity requests label g g')
    (hlabel : label ≠ .database) : g'.tables = g.tables := by
  cases h with
  | reserve | reconcile => exact absurd rfl hlabel
  | _ => rfl

/-! ### The invariant -/

def Phase.keepsRow : Phase → Bool
  | .reserved _ _ => true
  | .contacted _ _ _ => true
  | .returned (.ok _) => true
  | .finished (.ok _) => true
  | _ => false

/-- The rows that other parts of the system write: their roots are spelled otherwise than those of a task. -/
def Foreign (M : Type) [SlashableMessage M] (others : RowIdentity → Prop) : Prop :=
  ∀ id, others id → id.kind.Small ∧ ∀ m : M, id.signingRoot ≠ some (signingRootHex m)

def Gate.Needs (g : Gate) (requests : Nat → Request M) (id : RowIdentity) : Prop :=
  ∃ i, (g.phase i).keepsRow = true ∧ id = identityOf (requests i).pubkey (requests i).message

/-- The tables have every row that a task keeps or that the others need. -/
structure GateInv (others needs : RowIdentity → Prop) (requests : Nat → Request M) (g : Gate) : Prop where
  tasks : TaskLocks requests g.locks g.phase
  sound : g.tables.Sound fun id => KnownIdentity M id ∨ others id
  own : ∀ i, (g.phase i).Own (requests i)
  foreign : ∀ id, needs id → others id
  keeps : g.tables.Keeps fun id => g.Needs requests id ∨ needs id
  sole : ∀ i reservation, (g.phase i).reservation? = some reservation → reservation.inserted = true →
    ∀ j, j ≠ i → (requests j).pubkey = (requests i).pubkey → (requests j).message = (requests i).message →
      (g.phase j).keepsRow = false

section

variable {others needs needs' : RowIdentity → Prop} {requests : Nat → Request M} {g g' : Gate} {i : Nat}
  {p q : Phase}

namespace Foreign

theorem small (h : Foreign M others) (id : RowIdentity) (hid : KnownIdentity M id ∨ others id) : id.kind.Small := by
  rcases hid with ⟨pubkey, m, rfl⟩ | hid
  · exact SlashableMessage.small m
  · exact (h id hid).1

theorem kind_of_root (h : Foreign M others) (m : M) (id : RowIdentity)
    (hid : KnownIdentity M id ∨ others id) (hroot : id.signingRoot = some (signingRootHex m)) :
    id.kind = SlashableMessage.kind m := by
  rcases hid with ⟨pubkey, m', rfl⟩ | hid
  · exact congrArg kind (signingRootHex_injective (Option.some.inj hroot))
  · exact absurd hroot ((h id hid).2 m)

end Foreign

namespace Gate

omit [SlashableMessage M] in
theorem keepsRow_of_setPhase {j : Nat} (hi : g.phase i = p) (hkeeps : q.keepsRow = true → p.keepsRow = true)
    (hj : ((g.setPhase i q).phase j).keepsRow = true) : (g.phase j).keepsRow = true :=
  of_update (P := fun phase => phase.keepsRow = true) hi hkeeps hj

theorem needs_of_setPhase {id : RowIdentity} (hi : g.phase i = p)
    (hkeeps : q.keepsRow = true → p.keepsRow = true) (h : (g.setPhase i q).Needs requests id) :
    g.Needs requests id := by
  obtain ⟨j, hj, rfl⟩ := h
  exact ⟨j, keepsRow_of_setPhase hi hkeeps hj, rfl⟩

end Gate

namespace GateInv

theorem new {tables : Tables} (hforeign : ∀ id, needs id → others id)
    (hsound : tables.Sound fun id => KnownIdentity M id ∨ others id) (hkeeps : tables.Keeps needs) :
    GateInv others needs requests (.new tables) := by
  refine ⟨⟨.new, nofun, nofun⟩, hsound, nofun, hforeign, hkeeps.mono ?_, nofun⟩
  rintro id (⟨i, hi, -⟩ | hid)
  · cases hi
  · exact hid

section

variable (h : GateInv others needs requests g)

include h

theorem known_of_needed (id : RowIdentity) (hid : g.Needs requests id ∨ needs id) : KnownIdentity M id ∨ others id := by
  rcases hid with ⟨i, -, rfl⟩ | hid
  · exact .inl ⟨_, _, rfl⟩
  · exact .inr (h.foreign id hid)

/-- A step of one task that does not touch the tables, and gives the task neither a reservation nor a row to
keep that it had not. -/
theorem relock {locks : LockState} (hi : g.phase i = p) (htasks : TaskLocks requests locks (update g.phase i q))
    (hres : ∀ reservation, q.reservation? = some reservation → p.reservation? = some reservation)
    (hkeeps : q.keepsRow = true → p.keepsRow = true) :
    GateInv others needs requests { g.setPhase i q with locks := locks } := by
  refine ⟨htasks, h.sound, ?_, h.foreign, ?_, ?_⟩
  · exact (forall_update_iff g.phase fun j phase => phase.Own (requests j)).mpr
      ⟨fun r hr => h.own i r (hi ▸ hres r hr), fun j _ => h.own j⟩
  · exact h.keeps.mono fun id hid => hid.imp_left (Gate.needs_of_setPhase hi hkeeps)
  · intro k reservation hk hinserted j hj hpk hm
    have hk' : (g.phase k).reservation? = some reservation :=
      of_update (P := fun phase => phase.reservation? = some reservation) hi (hres reservation) hk
    by_contra hne
    have hkept := Gate.keepsRow_of_setPhase hi hkeeps (Bool.eq_true_of_not_eq_false hne)
    rw [h.sole k reservation hk' hinserted j hj hpk hm] at hkept
    cases hkept

theorem move (hi : g.phase i = p) (hlock : q.holdsLock = p.holdsLock)
    (hres : ∀ reservation, q.reservation? = some reservation → p.reservation? = some reservation)
    (hkeeps : q.keepsRow = true → p.keepsRow = true) : GateInv others needs requests (g.setPhase i q) :=
  h.relock hi (h.tasks.move hi hlock) hres hkeeps

theorem write {tables : Tables} (hforeign : ∀ id, needs' id → others id)
    (hsound : tables.Sound fun id => KnownIdentity M id ∨ others id)
    (hkeeps : tables.Keeps fun id => g.Needs requests id ∨ needs' id) :
    GateInv others needs' requests { g with tables := tables } :=
  ⟨h.tasks, hsound, h.own, hforeign, hkeeps, h.sole⟩

end

variable {db : SlashingDb} {policy : TimeoutPolicy} {reservation : CommittedReservation}

section

variable (hothers : Foreign M others) (h : GateInv others needs requests g)

include hothers h

theorem accept (hi : g.phase i = .resolved policy) (hacc : SpecAccepted db g.tables (requests i).spec reservation) :
    GateInv others needs requests { g.setPhase i (.reserved policy reservation) with
      tables := g.tables.afterReserve (requests i).spec reservation } := by
  have hsmall := small (requests i).message
  have hknown : KnownIdentity M (requests i).spec.identity := ⟨(requests i).pubkey, (requests i).message, rfl⟩
  have hholds : (g.phase i).holdsLock = true := by
    rw [hi]
    rfl
  refine ⟨h.tasks.move hi rfl, h.sound.reserve hacc hsmall (.inl hknown), ?_, h.foreign, ?_, ?_⟩
  · refine (forall_update_iff g.phase fun j phase => phase.Own (requests j)).mpr ⟨fun r hr => ?_, fun j _ => h.own j⟩
    cases hr
    cases hacc with
    | block | attestation => exact ⟨_, rfl⟩
  · refine h.keeps.reserve h.sound hacc hothers.small h.known_of_needed (.inl hknown)
      (hothers.kind_of_root (requests i).message) ?_
    rintro id (⟨j, hj, rfl⟩ | hid)
    · by_cases hji : j = i
      · subst hji
        exact .inr rfl
      · refine .inl (.inl ⟨j, ?_, rfl⟩)
        simpa [Gate.setPhase, update_of_ne hji] using hj
    · exact .inl (.inr hid)
  · intro k r hk hinserted j hj hpk hm
    by_cases hki : k = i
    · -- another task that keeps the row of this message would have made this one repeat it
      subst hki
      simp only [Gate.setPhase, update_self, update_of_ne hj] at hk ⊢
      cases hk
      by_contra hne
      have hrow := h.keeps.recorded _ (.inl ⟨j, Bool.eq_true_of_not_eq_false hne, rfl⟩)
      rw [hpk, hm] at hrow
      have hfalse := (hacc.of_records h.sound hsmall (small _) rfl (.refl _) hrow).1
      rw [hinserted] at hfalse
      cases hfalse
    · simp only [Gate.setPhase, update_of_ne hki] at hk
      by_cases hji : j = i
      · -- both would be inside the lock of the key
        subst hji
        have hholds' := Phase.holdsLock_of_reservation hk
        exact absurd (h.tasks.exclusive k j hholds' hholds hpk.symm) hki
      · simp only [Gate.setPhase, update_of_ne hji]
        exact h.sole k r hk hinserted j hj hpk hm

theorem reserve (hi : g.phase i = .resolved policy) (root : Root) :
    GateInv others needs requests { g.setPhase i (.afterReserve root policy
        (Slashing.reserve db g.tables (requests i).spec).1) with
      tables := (Slashing.reserve db g.tables (requests i).spec).2 } := by
  rcases reserve_cases db g.tables (requests i).spec with ⟨e, heq⟩ | ⟨reservation, hacc, heq⟩
  · rw [heq]
    exact h.move hi rfl nofun nofun
  · rw [heq]
    exact h.accept hothers hi hacc

theorem reconcile
    {error : SigningGateError} (hi : g.phase i = .reconciling reservation error) (faults : ReconcileFaults) :
    GateInv others needs requests { g.setPhase i (.returned (.error error)) with
      tables := (reconcileUnsigned faults ⟨g.tables, none⟩ reservation).2.committed } := by
  have hmoved : GateInv others needs requests (g.setPhase i (.returned (.error error))) :=
    h.move hi rfl nofun nofun
  have hheld : (g.phase i).reservation? = some reservation := by
    rw [hi]
    rfl
  have hspec := reconcileUnsigned_spec faults g.tables reservation
  generalize reconcileUnsigned faults ⟨g.tables, none⟩ reservation = result at hspec
  cases hspec with
  | kept => exact hmoved
  | deleted hinserted hone =>
    obtain ⟨inserted, rfl⟩ := h.own i reservation hheld
    refine ⟨hmoved.tasks, h.sound.without _, hmoved.own, h.foreign, ?_, hmoved.sole⟩
    rw [Request.identity_reservation]
    refine hmoved.keeps.without ?_ (small _)
      fun id hid => hothers.small id (hmoved.known_of_needed id hid)
    rintro (⟨j, hj, heq⟩ | hid)
    · obtain ⟨hpk, hm⟩ := identityOf_inj heq
      have hj' : (g.phase j).keepsRow = true :=
        Gate.keepsRow_of_setPhase (q := .returned (.error error)) hi nofun hj
      have hji : j ≠ i := by
        rintro rfl
        rw [hi] at hj'
        cases hj'
      rw [h.sole i _ hheld hinserted j hji hpk.symm hm.symm] at hj'
      cases hj'
    · exact (hothers _ (h.foreign _ hid)).2 _ rfl

/-- **Every step keeps the invariant.** -/
theorem step {capacity : Nat} {label : GateLabel} (hstep : GateStep db capacity requests label g g') :
    GateInv others needs requests g' := by
  cases hstep with
  | lockTraffic hlocks => exact ⟨h.tasks.traffic hlocks, h.sound, h.own, h.foreign, h.keeps, h.sole⟩
  | lock i hi hlocks => exact h.relock hi (h.tasks.lock hlocks) nofun nofun
  | disabled i hi | resolve i hi answer | reserveFailed i hi e => exact h.move hi rfl nofun nofun
  | reserve i hi => exact h.reserve hothers hi _
  | contact i hi answer => exact h.move hi rfl (fun _ hr => hr) fun _ => rfl
  | @respond g i policy reservation produced hi result =>
    cases dispatchSign policy result with
    | release signature => exact h.move hi rfl nofun fun _ => rfl
    | retain error => exact h.move hi rfl nofun nofun
    | reconcile error => exact h.move hi rfl (fun _ hr => hr) nofun
  | reconcile i hi faults => exact h.reconcile hothers hi faults
  | @release g locks i result hi hlocks =>
    refine h.relock hi (h.tasks.release hi rfl rfl hlocks) nofun fun hkeeps => ?_
    cases result with
    | ok signature => rfl
    | error e => cases hkeeps
  | panicked i hi reason =>
    have hlock : (g.phase i).holdsLock = true := hi
    refine h.move rfl ?_ nofun nofun
    rw [hlock]
    rfl

end

end GateInv

/-! ### Closing a key -/

/-- The task has not passed the enablement check, or has ended. -/
def Phase.isIdle : Phase → Bool
  | .waiting => true
  | .locked => true
  | .returned (.error _) => true
  | .finished _ => true
  | .lost => true
  | _ => false

/-- No task of the key is between the enablement check and its end. -/
def Gate.Closed (g : Gate) (requests : Nat → Request M) (pubkey : PubkeyBytes) : Prop :=
  ∀ i, (requests i).pubkey = pubkey → (g.phase i).isIdle = true

theorem Phase.isIdle_of_holdsLock {phase : Phase} (h : phase.holdsLock = false) : phase.isIdle = true := by
  cases phase <;> first | rfl | cases h

variable {capacity : Nat} {db : SlashingDb} {label : GateLabel} {pubkey : PubkeyBytes}

omit [SlashableMessage M] in
theorem Gate.Closed.setPhase (h : g.Closed requests pubkey) (hi : g.phase i = p)
    (hidle : p.isIdle = true → q.isIdle = true) : (g.setPhase i q).Closed requests pubkey := by
  refine (forall_update_iff g.phase fun j phase => (requests j).pubkey = pubkey → phase.isIdle = true).mpr ?_
  exact ⟨fun hpk => hidle (hi ▸ h i hpk), fun j _ => h j⟩

theorem Gate.Closed.step (h : g.Closed requests pubkey) (hstep : GateStep db capacity requests label g g')
    (hlabel : ∀ i, label = .enabled i → (requests i).pubkey ≠ pubkey) : g'.Closed requests pubkey := by
  cases hstep with
  | lockTraffic => exact h
  | lock i hi | disabled i hi => exact h.setPhase hi fun _ => rfl
  | resolve i hi =>
    intro j hj
    have hji : j ≠ i := fun heq => hlabel i rfl (heq ▸ hj)
    simpa [Gate.setPhase, update_of_ne hji] using h j hj
  | reserveFailed i hi => exact h.setPhase hi fun _ => rfl
  | reserve i hi | contact i hi | respond i hi => exact h.setPhase hi nofun
  | reconcile i hi | release i hi => exact h.setPhase hi fun _ => rfl
  | panicked i hi => exact h.setPhase rfl fun _ => rfl

theorem GateStep.answered (hstep : GateStep db capacity requests (.answered i) g g')
    {result : Except SigningGateError (List UInt8)} (hi : g.phase i = .returned result) :
    g'.phase i = .finished result := by
  cases hstep with
  | release _ hi' =>
    rw [hi] at hi'
    cases hi'
    exact update_self ..

theorem GateStep.finished (hstep : GateStep db capacity requests label g g')
    {result : Except SigningGateError (List UInt8)} (hi : g.phase i = .finished result) :
    g'.phase i = .finished result := by
  have hother : ∀ j q, g.phase j ≠ .finished result → (g.setPhase j q).phase i = .finished result := by
    intro j q hj
    have hij : i ≠ j := fun heq => hj (heq ▸ hi)
    simpa [Gate.setPhase, update_of_ne hij] using hi
  cases hstep with
  | lockTraffic => exact hi
  | lock j hj | disabled j hj | resolve j hj | reserveFailed j hj | reserve j hj | contact j hj | respond j hj
  | reconcile j hj | release j hj => exact hother j _ (by rw [hj]; nofun)
  | panicked j hj =>
    refine hother j _ fun heq => ?_
    rw [heq] at hj
    cases hj

end

end Rvc.Signer
