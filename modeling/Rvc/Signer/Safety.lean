import Rvc.Lib.Ownership
import Rvc.Signer.Core

/-!
# No slashable pair is signed

The row of a message is committed before the backend sees the message, and may be deleted again after.
What makes this safe is an invariant over the messages at risk, those that are possibly signed and those
of tasks that hold a reservation: each has its row or is covered by the floors, and no two of one key
conflict (`RiskInv`). A reserve adds a message to them only if the rules accept it against the rows and the
floors of all others; a compensating delete takes its row away from the one message that leaves them, and
that this message is nobody else's rests on the lock (`SignInv.unsigned`).
-/

namespace Rvc.Signer

open Rvc.Lib Rvc.EthTypes Rvc.Slashing Rvc.Observability Function SlashableMessage SignState Phase

variable {M : Type}

/-! ### Tasks and guards -/

/-- The tasks inside the lock are those the lock map has a guard for, one per key. -/
structure TaskLocks (requests : Nat → Request M) (locks : LockState) (phase : Nat → Phase) : Prop where
  map : LockInv locks
  guarded : ∀ i, (phase i).holdsLock = true → 0 < locks.held (requests i).pubkey
  exclusive : ∀ i j, (phase i).holdsLock = true → (phase j).holdsLock = true →
    (requests i).pubkey = (requests j).pubkey → i = j

variable {requests : Nat → Request M} {capacity : Nat} {pubkey : PubkeyBytes}

namespace TaskLocks

variable {locks locks' : LockState} {phase : Nat → Phase} {i : Nat} {p q : Phase}

section

variable (h : TaskLocks requests locks phase)

include h

theorem traffic (hstep : LockStep capacity .quiet locks locks') : TaskLocks requests locks' phase :=
  ⟨h.map.step hstep, fun i hi => (hstep.held_quiet _).symm ▸ h.guarded i hi, h.exclusive⟩

theorem move (hi : phase i = p) (hpq : q.holdsLock = p.holdsLock) : TaskLocks requests locks (update phase i q) := by
  have hold {j : Nat} : (update phase i q j).holdsLock = true → (phase j).holdsLock = true :=
    of_update (P := fun phase => phase.holdsLock = true) hi hpq.symm.trans
  exact ⟨h.map, fun j hj => h.guarded j (hold hj), fun j k hj hk => h.exclusive j k (hold hj) (hold hk)⟩

theorem lock (hstep : LockStep capacity (.acquired (requests i).pubkey) locks locks') :
    TaskLocks requests locks' (update phase i q) := by
  have hlocks := h.map.step hstep
  have hfree : locks.held (requests i).pubkey = 0 := by
    have hle := hlocks.held_le (requests i).pubkey
    rw [hstep.held_acquired, if_pos rfl] at hle
    omega
  have hnone : ∀ j, (phase j).holdsLock = true → (requests j).pubkey ≠ (requests i).pubkey := by
    intro j hj heq
    have hpos := h.guarded j hj
    rw [heq, hfree] at hpos
    exact Nat.lt_irrefl 0 hpos
  refine ⟨hlocks, fun j hj => ?_, fun j k hj hk heq => ?_⟩
  · rw [hstep.held_acquired]
    by_cases hji : j = i
    · subst hji
      rw [if_pos rfl]
      omega
    · rw [update_of_ne hji] at hj
      exact Nat.lt_add_right _ (h.guarded j hj)
  · by_cases hji : j = i <;> by_cases hki : k = i
    · exact hji.trans hki.symm
    · subst hji
      rw [update_of_ne hki] at hk
      exact absurd heq.symm (hnone k hk)
    · subst hki
      rw [update_of_ne hji] at hj
      exact absurd heq (hnone j hj)
    · rw [update_of_ne hji] at hj
      rw [update_of_ne hki] at hk
      exact h.exclusive j k hj hk heq

theorem release (hi : phase i = p) (hp : p.holdsLock = true)
    (hq : q.holdsLock = false) (hstep : LockStep capacity (.released (requests i).pubkey) locks locks') :
    TaskLocks requests locks' (update phase i q) := by
  have hother : ∀ j, (update phase i q j).holdsLock = true →
      j ≠ i ∧ (phase j).holdsLock = true := by
    refine (forall_update_iff phase fun j p => p.holdsLock = true → j ≠ i ∧ _).mpr ⟨?_, fun j hji hj => ⟨hji, hj⟩⟩
    rw [hq]
    exact nofun
  refine ⟨h.map.step hstep, fun j hj => ?_, fun j k hj hk => ?_⟩
  · obtain ⟨hji, hj⟩ := hother j hj
    -- another holder has another key, whose guards are untouched
    have hne : (requests i).pubkey ≠ (requests j).pubkey := fun heq =>
      hji (h.exclusive i j (hi ▸ hp) hj heq).symm
    have hheld := hstep.held_released (requests j).pubkey
    rw [if_neg hne, Nat.add_zero] at hheld
    exact hheld ▸ h.guarded j hj
  · exact h.exclusive j k (hother j hj).2 (hother k hk).2

end

theorem drain {locks'' : LockState} (h : TaskLocks requests locks phase)
    (hacquire : LockStep capacity (.acquired pubkey) locks locks')
    (hdrop : LockStep capacity (.released pubkey) locks' locks'') :
    TaskLocks requests locks'' phase ∧ ∀ i, (requests i).pubkey = pubkey → (phase i).holdsLock = false := by
  have hheld : ∀ key, locks''.held key = locks.held key := by
    intro key
    have hup := hacquire.held_acquired key
    have hdown := hdrop.held_released key
    omega
  refine ⟨⟨(h.map.step hacquire).step hdrop, fun i hi => ?_, h.exclusive⟩, fun i hi => ?_⟩
  · rw [hheld]
    exact h.guarded i hi
  · by_contra hholds
    have hpos := h.guarded i (Bool.eq_true_of_not_eq_false hholds)
    have hle := (h.map.step hacquire).held_le pubkey
    rw [hacquire.held_acquired, if_pos rfl] at hle
    rw [hi] at hpos
    omega

end TaskLocks

variable [SlashableMessage M]

/-! ### Messages at risk -/

/-- Two messages a validator can be slashed for signing both. -/
def SlashablePair (m m' : M) : Prop :=
  m ≠ m' ∧ (SlashableMessage.kind m).Conflicts (SlashableMessage.kind m')

theorem SlashablePair.symm {m m' : M} (h : SlashablePair m m') : SlashablePair m' m :=
  ⟨h.1.symm, h.2.symm⟩

def identityOf (pubkey : PubkeyBytes) (m : M) : RowIdentity :=
  ⟨normalizePubkey (Hex.encode pubkey.1), SlashableMessage.kind m, some (signingRootHex m)⟩

theorem signingRootHex_injective : Function.Injective (signingRootHex (M := M)) := fun _ _ h =>
  SlashableMessage.signingRoot_injective (Subtype.ext (Hex.encode_injective h))

theorem identityOf_inj {pubkey' : PubkeyBytes} {m m' : M}
    (h : identityOf pubkey m = identityOf pubkey' m') : pubkey = pubkey' ∧ m = m' := by
  obtain ⟨hpk, -, hroot⟩ := RowIdentity.mk.inj h
  exact ⟨Subtype.ext (normalizePubkey_encode_inj hpk), signingRootHex_injective (Option.some.inj hroot)⟩

theorem Request.identity_reservation (request : Request M) (inserted : Bool) :
    (request.spec.reservation inserted).identity = identityOf request.pubkey request.message := by
  simp only [CommittedReservation.identity, ReserveSpec.reservation, Request.spec, ReserveSpec.of,
    normalizePubkey_idem, identityOf]

/-- The identities a row can come from when the process wrote it. -/
def KnownIdentity (M : Type) [SlashableMessage M] (id : RowIdentity) : Prop :=
  ∃ (pubkey : PubkeyBytes) (m : M), id = identityOf pubkey m

/-- Every message at risk is protected, and no two of one key are a slashable pair. -/
structure RiskInv (t : Tables) (risk : PubkeyBytes → M → Prop) : Prop where
  protects : ∀ pubkey m, risk pubkey m → t.Protects (identityOf pubkey m)
  compatible : ∀ pubkey m m', risk pubkey m → risk pubkey m' → ¬ SlashablePair m m'

namespace RiskInv

variable {t t' : Tables} {risk risk' : PubkeyBytes → M → Prop}

theorem mono (h : RiskInv t risk) (hsub : ∀ pubkey m, risk' pubkey m → risk pubkey m) : RiskInv t risk' :=
  ⟨fun pubkey m hm => h.protects pubkey m (hsub pubkey m hm), fun pubkey m m' hm hm' =>
    h.compatible pubkey m m' (hsub pubkey m hm) (hsub pubkey m' hm')⟩

theorem advance (h : RiskInv t risk) (hadv : t.Advances t') : RiskInv t' risk :=
  ⟨fun pubkey m hm => (h.protects pubkey m hm).advance hadv, h.compatible⟩

theorem without (h : RiskInv t risk) {m : M} (hgone : ¬ risk pubkey m) :
    RiskInv (t.without (identityOf pubkey m)) risk := by
  refine ⟨fun pubkey' m' hrisk => ?_, h.compatible⟩
  refine (h.protects pubkey' m' hrisk).without ?_ (small m) (small m')
  intro heq
  obtain ⟨rfl, rfl⟩ := identityOf_inj heq
  exact hgone hrisk

variable {db : SlashingDb} {request : Request M} {reservation : CommittedReservation}

section

variable (h : RiskInv t risk) (hsound : t.Sound (KnownIdentity M)) (hacc : SpecAccepted db t request.spec reservation)

include h hsound hacc

theorem eq_of_conflicts {m : M} (hrisk : risk request.pubkey m)
    (hconf : (SlashableMessage.kind request.message).Conflicts (SlashableMessage.kind m)) :
    reservation.inserted = false ∧ m = request.message := by
  have hprot := h.protects request.pubkey m hrisk
  have hconf' : request.spec.kind.Conflicts (identityOf request.pubkey m).kind := hconf
  obtain ⟨hinserted, hroot⟩ := hacc.of_conflicts hsound (small request.message) (small m) rfl hconf' hprot
  exact ⟨hinserted, signingRootHex_injective (Option.some.inj hroot)⟩

/-- **Reserving.** The accepted message joins the messages at risk, and the tables protect them all. -/
theorem reserve (hrisk : ∀ pubkey m, risk' pubkey m → risk pubkey m ∨ pubkey = request.pubkey ∧ m = request.message) :
    RiskInv (t.afterReserve request.spec reservation) risk' := by
  refine ⟨fun pubkey m hm => ?_, fun pubkey m m' hm hm' hpair => ?_⟩
  · rcases hrisk pubkey m hm with hold | ⟨rfl, rfl⟩
    · exact (h.protects pubkey m hold).advance hacc.extends.advances
    · refine .inl (hacc.records hsound (small request.message) ?_)
      rintro id ⟨pubkey, m, rfl⟩ hroot
      exact congrArg kind (signingRootHex_injective (Option.some.inj hroot))
  · rcases hrisk pubkey m hm with hold | ⟨rfl, rfl⟩
    · rcases hrisk pubkey m' hm' with hold' | ⟨rfl, rfl⟩
      · exact h.compatible pubkey m m' hold hold' hpair
      · exact hpair.1 (h.eq_of_conflicts hsound hacc hold hpair.symm.2).2
    · rcases hrisk _ m' hm' with hold' | ⟨-, rfl⟩
      · exact hpair.1 (h.eq_of_conflicts hsound hacc hold' hpair.2).2.symm
      · exact hpair.1 rfl

end

end RiskInv

/-! ### The invariant of the process -/

def Phase.reservation? : Phase → Option CommittedReservation
  | .reserved _ reservation => some reservation
  | .contacted _ reservation _ => some reservation
  | .reconciling reservation _ => some reservation
  | _ => none

def Phase.deletable? : Phase → Option CommittedReservation
  | .reserved _ reservation => some reservation
  | .contacted _ reservation false => some reservation
  | .reconciling reservation _ => some reservation
  | _ => none

def Phase.Own (phase : Phase) (request : Request M) : Prop :=
  ∀ reservation, phase.reservation? = some reservation →
    ∃ inserted, reservation = request.spec.reservation inserted

/-- A message whose row the task may still delete was signed by nobody. -/
def Phase.Unsigned (phase : Phase) (request : Request M) (signed : Set (PubkeyBytes × M)) : Prop :=
  ∀ reservation, phase.deletable? = some reservation → reservation.inserted = true →
    (request.pubkey, request.message) ∉ signed

theorem Phase.holdsLock_of_reservation {phase : Phase} {reservation : CommittedReservation}
    (h : phase.reservation? = some reservation) : phase.holdsLock = true := by
  cases phase <;> first | rfl | cases h

theorem Phase.reservation_of_deletable {phase : Phase} {reservation : CommittedReservation}
    (h : phase.deletable? = some reservation) : phase.reservation? = some reservation := by
  cases phase with
  | contacted policy r produced => cases produced <;> first | exact h | cases h
  | _ => exact h

section

variable (requests : Nat → Request M)

/-- The message is possibly signed, or a task holds a reservation for it. -/
def SignState.AtRisk (s : SignState M) (pubkey : PubkeyBytes) (m : M) : Prop :=
  (pubkey, m) ∈ s.possiblySigned ∨ ∃ i, (requests i).pubkey = pubkey ∧ (requests i).message = m ∧
    ∃ reservation, (s.phase i).reservation? = some reservation

structure SignInv (s : SignState M) : Prop where
  tasks : TaskLocks requests s.locks s.phase
  sound : s.tables.Sound (KnownIdentity M)
  own : ∀ i, (s.phase i).Own (requests i)
  risk : RiskInv s.tables (s.AtRisk requests)
  unsigned : ∀ i, (s.phase i).Unsigned (requests i) s.possiblySigned

end

variable {s : SignState M} {i : Nat} {p q : Phase}

omit [SlashableMessage M] in
theorem SignState.phase_setPhase : (s.setPhase i q).phase = update s.phase i q := rfl

omit [SlashableMessage M] in
/-- The messages at risk after a task's step: those of the others, and its own if it has a reservation. -/
theorem SignState.atRisk_setPhase {m : M} (h : (s.setPhase i q).AtRisk requests pubkey m) :
    (pubkey, m) ∈ s.possiblySigned ∨ (∃ j, j ≠ i ∧ (requests j).pubkey = pubkey ∧ (requests j).message = m ∧
        ∃ reservation, (s.phase j).reservation? = some reservation) ∨
      (∃ reservation, q.reservation? = some reservation) ∧
        pubkey = (requests i).pubkey ∧ m = (requests i).message := by
  rcases h with h | ⟨j, hpk, hm, reservation, hres⟩
  · exact .inl h
  · by_cases hj : j = i
    · subst hj
      rw [phase_setPhase, update_self] at hres
      exact .inr (.inr ⟨⟨reservation, hres⟩, hpk.symm, hm.symm⟩)
    · rw [phase_setPhase, update_of_ne hj] at hres
      exact .inr (.inl ⟨j, hj, hpk, hm, reservation, hres⟩)

omit [SlashableMessage M] in
theorem SignState.atRisk_of_setPhase {m : M} (hi : s.phase i = p)
    (hres : ∀ reservation, q.reservation? = some reservation → p.reservation? = some reservation)
    (h : (s.setPhase i q).AtRisk requests pubkey m) : s.AtRisk requests pubkey m := by
  rcases atRisk_setPhase h with h | ⟨j, -, h⟩ | ⟨⟨reservation, hq⟩, rfl, rfl⟩
  · exact .inl h
  · exact .inr ⟨j, h⟩
  · exact .inr ⟨i, rfl, rfl, reservation, hi ▸ hres reservation hq⟩

namespace SignInv

theorem init (gvr : Option String) : SignInv requests (.init gvr : SignState M) where
  tasks := ⟨.new, nofun, nofun⟩
  sound := .empty gvr
  own := nofun
  risk := by
    have hnone : ∀ pubkey m, ¬ (SignState.init gvr).AtRisk requests pubkey m := by
      rintro pubkey m (h | ⟨j, -, -, reservation, h⟩)
      · exact h
      · cases h
    exact ⟨fun pubkey m h => (hnone pubkey m h).elim, fun pubkey m _ h => (hnone pubkey m h).elim⟩
  unsigned := nofun

theorem own_setPhase (h : SignInv requests s) (hi : s.phase i = p)
    (hres : ∀ reservation, q.reservation? = some reservation → p.reservation? = some reservation) :
    ∀ j, ((s.setPhase i q).phase j).Own (requests j) :=
  (forall_update_iff s.phase fun j phase => phase.Own (requests j)).mpr
    ⟨fun r hr => h.own i r (hi ▸ hres r hr), fun j _ => h.own j⟩

theorem relock (h : SignInv requests s) {locks : LockState} (hi : s.phase i = p)
    (htasks : TaskLocks requests locks (update s.phase i q))
    (hres : ∀ reservation, q.reservation? = some reservation → p.reservation? = some reservation)
    (hdel : ∀ reservation, q.deletable? = some reservation → p.deletable? = some reservation) :
    SignInv requests { s.setPhase i q with locks := locks } where
  tasks := htasks
  sound := h.sound
  own := h.own_setPhase hi hres
  risk := h.risk.mono fun _ _ => SignState.atRisk_of_setPhase hi hres
  unsigned := (forall_update_iff s.phase fun j phase =>
      phase.Unsigned (requests j) s.possiblySigned).mpr
    ⟨fun r hr => h.unsigned i r (hi ▸ hdel r hr), fun j _ => h.unsigned j⟩

section

variable (h : SignInv requests s) (hi : s.phase i = p) (hlock : q.holdsLock = p.holdsLock)
  (hres : ∀ reservation, q.reservation? = some reservation → p.reservation? = some reservation)

include h hi hlock hres

theorem move (hdel : ∀ reservation, q.deletable? = some reservation → p.deletable? = some reservation) :
    SignInv requests (s.setPhase i q) :=
  h.relock hi (h.tasks.move hi hlock) hres hdel

/-- A task's message is signed, or will be counted as signed, and its row is no longer deleted. -/
theorem mark (hdel : q.deletable? = none) {held : CommittedReservation} (hheld : p.reservation? = some held) :
    SignInv requests ((s.setPhase i q).mark (requests i)) where
  tasks := h.tasks.move hi hlock
  sound := h.sound
  own := h.own_setPhase hi hres
  risk := by
    refine h.risk.mono fun pubkey m hrisk => ?_
    rcases hrisk with (heq | hsigned) | hrisk
    · cases heq
      exact .inr ⟨i, rfl, rfl, held, hi ▸ hheld⟩
    · exact .inl hsigned
    · exact atRisk_of_setPhase hi hres (.inr hrisk)
  unsigned := by
    refine (forall_update_iff s.phase fun j phase => phase.Unsigned (requests j)
      ((s.setPhase i q).mark (requests i)).possiblySigned).mpr ⟨fun r hr => ?_, fun j hj r hr hins => ?_⟩
    · rw [hdel] at hr
      cases hr
    · -- the other task is inside the lock of another key
      rintro (heq | hsigned)
      · have hholds := holdsLock_of_reservation (reservation_of_deletable hr)
        have hholds' : (s.phase i).holdsLock = true := hi ▸ holdsLock_of_reservation hheld
        exact hj (h.tasks.exclusive j i hholds hholds' (Prod.mk.inj heq).1)
      · exact h.unsigned j r hr hins hsigned

end

theorem tables (h : SignInv requests s) {t : Tables} (ht : s.tables.Advances t ∧ t.Sound (KnownIdentity M)) :
    SignInv requests { s with tables := t } :=
  ⟨h.tasks, ht.2, h.own, h.risk.advance ht.1, h.unsigned⟩

variable {db : SlashingDb} {policy : TimeoutPolicy} {reservation : CommittedReservation}

section

variable (h : SignInv requests s)

include h

theorem accept (hi : s.phase i = .resolved policy) (hacc : SpecAccepted db s.tables (requests i).spec reservation) :
    SignInv requests { s.setPhase i (.reserved policy reservation) with
      tables := s.tables.afterReserve (requests i).spec reservation } where
  tasks := h.tasks.move hi rfl
  sound := h.sound.reserve hacc (SlashableMessage.small (requests i).message)
    ⟨(requests i).pubkey, (requests i).message, rfl⟩
  own := by
    refine (forall_update_iff s.phase fun j phase => phase.Own (requests j)).mpr ⟨fun r hr => ?_, fun j _ => h.own j⟩
    cases hr
    cases hacc with
    | block | attestation => exact ⟨_, rfl⟩
  risk := by
    refine h.risk.reserve h.sound hacc fun pubkey m hrisk => ?_
    -- which messages are at risk does not depend on the tables
    have hrisk' : (s.setPhase i (.reserved policy reservation)).AtRisk requests pubkey m := hrisk
    rcases atRisk_setPhase hrisk' with hsigned | ⟨j, -, hj⟩ | ⟨-, hself⟩
    · exact .inl (.inl hsigned)
    · exact .inl (.inr ⟨j, hj⟩)
    · exact .inr hself
  unsigned := by
    refine (forall_update_iff s.phase fun j phase => phase.Unsigned (requests j)
      s.possiblySigned).mpr ⟨fun r hr hins hsigned => ?_, fun j _ => h.unsigned j⟩
    cases hr
    have hfalse := (h.risk.eq_of_conflicts h.sound hacc (.inl hsigned) (.refl _)).1
    rw [hins] at hfalse
    cases hfalse

theorem reserve (hi : s.phase i = .resolved policy) (root : Root) :
    SignInv requests { s.setPhase i (.afterReserve root policy (Slashing.reserve db s.tables (requests i).spec).1) with
      tables := (Slashing.reserve db s.tables (requests i).spec).2 } := by
  rcases reserve_cases db s.tables (requests i).spec with ⟨e, heq⟩ | ⟨reservation, hacc, heq⟩
  · rw [heq]
    exact h.move hi rfl nofun nofun
  · rw [heq]
    exact h.accept hi hacc

theorem reconcile {error : SigningGateError}
    (hi : s.phase i = .reconciling reservation error) (faults : ReconcileFaults) :
    SignInv requests { s.setPhase i (.returned (.error error)) with
      tables := (reconcileUnsigned faults ⟨s.tables, none⟩ reservation).2.committed } := by
  have hmoved : SignInv requests (s.setPhase i (.returned (.error error))) := h.move hi rfl nofun nofun
  have hspec := reconcileUnsigned_spec faults s.tables reservation
  generalize reconcileUnsigned faults ⟨s.tables, none⟩ reservation = result at hspec
  cases hspec with
  | kept => exact hmoved
  | deleted hinserted hone =>
    obtain ⟨inserted, rfl⟩ := h.own i reservation (by rw [hi]; rfl)
    refine ⟨hmoved.tasks, h.sound.without _, hmoved.own, ?_, hmoved.unsigned⟩
    rw [Request.identity_reservation]
    refine hmoved.risk.without fun hrisk => ?_
    rcases atRisk_setPhase hrisk with hsigned | ⟨j, hj, hpk, -, r, hr⟩ | ⟨⟨r, hr⟩, -⟩
    · exact h.unsigned i _ (by rw [hi]; rfl) hinserted hsigned
    · have hholds : (s.phase i).holdsLock = true := by rw [hi]; rfl
      exact hj (h.tasks.exclusive j i (holdsLock_of_reservation hr) hholds hpk)
    · cases hr

theorem restart : SignInv requests (s.restart requests) := by
  have hfree : ∀ i, ((s.restart requests).phase i).holdsLock = false := by
    intro i
    simp only [SignState.restart]
    split
    · rfl
    · next hi => simpa using hi
  have hnone : ∀ i reservation, ((s.restart requests).phase i).reservation? ≠ some reservation := by
    intro i reservation hr
    have hholds := Phase.holdsLock_of_reservation hr
    rw [hfree i] at hholds
    cases hholds
  refine ⟨⟨.new, fun i hi => ?_, fun i j hi => ?_⟩, h.sound, fun i r hr => absurd hr (hnone i r), ?_,
    fun i r hr => absurd (Phase.reservation_of_deletable hr) (hnone i r)⟩
  · rw [hfree i] at hi
    cases hi
  · rw [hfree i] at hi
    cases hi
  · refine h.risk.mono fun pubkey m hrisk => ?_
    rcases hrisk with (hsigned | ⟨i, hcontacted, heq⟩) | ⟨i, -, -, r, hr⟩
    · exact .inl hsigned
    · cases heq
      cases hphase : s.phase i with
      | contacted policy r produced => exact .inr ⟨i, rfl, rfl, r, by rw [hphase]; rfl⟩
      | _ => simp [hphase, Phase.isContacted] at hcontacted
    · exact absurd hr (hnone i r)

end

theorem not_produced {produced : Bool} {result : SignResult} {error : SigningGateError}
    (htruthful : BackendTruthful policy result produced)
    (hdispatch : dispatchSign policy result = .reconcile error) : produced = false := by
  cases result with
  | signed signature => cases hdispatch
  | elapsed =>
    cases policy with
    | discardStagedRow => exact htruthful rfl
    | retainStagedRow => cases hdispatch
  | failed e =>
    cases he : e.isUnambiguousNoSignature with
    | true => exact htruthful (.inl he)
    | false =>
      rw [dispatchSign_ambiguous he] at hdispatch
      cases policy with
      | discardStagedRow => exact htruthful (.inr rfl)
      | retainStagedRow => cases hdispatch

theorem respond (h : SignInv requests s) {produced : Bool}
    (hi : s.phase i = .contacted policy reservation produced) {result : SignResult}
    (htruthful : BackendTruthful policy result produced) :
    SignInv requests (s.respond (requests i) i reservation (dispatchSign policy result)) := by
  cases hdispatch : dispatchSign policy result with
  | release signature => exact h.move hi rfl nofun nofun
  | retain error => exact h.mark hi rfl nofun rfl rfl
  | reconcile error =>
    obtain rfl := not_produced htruthful hdispatch
    exact h.move hi rfl (fun _ hr => hr) fun _ hr => hr

theorem panic (h : SignInv requests s) (hi : (s.phase i).holdsLock = true) (reason : String) :
    SignInv requests (s.panic (requests i) i reason) := by
  unfold SignState.panic
  cases hphase : s.phase i with
  | contacted policy reservation produced => exact h.mark hphase rfl nofun rfl rfl
  | _ =>
    refine h.move hphase ?_ nofun nofun
    rw [← hphase, hi]
    rfl

/-- **Every step keeps the invariant.** -/
theorem step {s' : SignState M} (h : SignInv requests s) (hstep : SignStep db capacity requests s s') :
    SignInv requests s' := by
  cases hstep with
  | lockTraffic hlocks => exact ⟨h.tasks.traffic hlocks, h.sound, h.own, h.risk, h.unsigned⟩
  | lock i hi hlocks => exact h.relock hi (h.tasks.lock hlocks) nofun nofun
  | disabled i hi | resolve i hi answer | reserveFailed i hi e => exact h.move hi rfl nofun nofun
  | reserve i hi => exact h.reserve hi _
  | contact i hi answer => exact h.move hi rfl (fun _ hr => hr) fun _ hr => hr
  | produce i hi => exact h.mark hi rfl (fun _ hr => hr) rfl rfl
  | respond i hi result htruthful => exact h.respond hi htruthful
  | reconcile i hi faults => exact h.reconcile hi faults
  | release i hi hlocks => exact h.relock hi (h.tasks.release hi rfl rfl hlocks) nofun nofun
  | panicked i hi reason => exact h.panic hi reason
  | importFile faults hfile gvr => exact h.tables (h.sound.importInterchange hfile faults gvr)
  | setBlockWatermark hslot hset => exact h.tables (h.sound.setBlockWatermark hslot hset)
  | setAttestationWatermark hsource htarget hset =>
    exact h.tables (h.sound.setAttestationWatermark hsource htarget hset)
  | prune hprune => exact h.tables (h.sound.prune hprune)
  | restart => exact h.restart

end SignInv

/-! ### The theorem -/

/-- **No slashable pair.** In every reachable state, whatever the interleaving, the possibly signed messages
of a key contain no slashable pair, and each of them still has its row or is covered by the floors. -/
theorem no_slashable_pair_signed {db : SlashingDb} {gvr : Option String}
    (hrun : Relation.ReflTransGen (SignStep db capacity requests) (.init gvr) s) :
    (∀ pubkey m m', (pubkey, m) ∈ s.possiblySigned → (pubkey, m') ∈ s.possiblySigned → ¬ SlashablePair m m') ∧
    ∀ pubkey m, (pubkey, m) ∈ s.possiblySigned →
      s.tables.Records (identityOf pubkey m) ∨ s.tables.Covers (identityOf pubkey m) := by
  have hinv : SignInv requests s := by
    induction hrun with
    | refl => exact .init gvr
    | tail _ hstep ih => exact ih.step hstep
  exact ⟨fun pubkey m m' hm hm' => hinv.risk.compatible pubkey m m' (.inl hm) (.inl hm'),
    fun pubkey m hm => hinv.risk.protects pubkey m (.inl hm)⟩

inductive SampleVote where
  | inner
  | outer
  deriving DecidableEq

instance : SlashableMessage SampleVote where
  kind
    | .inner => .attestation 2 3
    | .outer => .attestation 1 4
  signingRoot
    | .inner => zeroRoot
    | .outer => ⟨List.replicate 32 1, rfl⟩
  small m := by cases m <;> decide
  signingRoot_injective m m' h := by
    cases m <;> cases m' <;> first | rfl | exact absurd h (by decide)

/-- One task signs the inner vote: it is protected, and the outer vote is not signed. -/
theorem no_slashable_pair_signed_innerVote :
    let key : PubkeyBytes := ⟨List.replicate 48 7, rfl⟩
    ∃ s : SignState SampleVote, (key, .inner) ∈ s.possiblySigned ∧
      (s.tables.Records (identityOf key SampleVote.inner) ∨
        s.tables.Covers (identityOf key SampleVote.inner)) ∧
      (key, .outer) ∉ s.possiblySigned := by
  intro key
  let requests : Nat → Request SampleVote := fun _ =>
    ⟨key, .inner, zeroRoot, .fixed .discardStagedRow, "attestation"⟩
  let moves := SignStep ⟨true, 0⟩ 800 requests
  let opened : LockState := LockState.new.get 800 key
  let s₀ : SignState SampleVote := .init none
  let s₁ := { s₀ with locks := opened }
  let s₂ := { s₁ with locks := { opened with handles := [⟨key, 0, .waiting⟩] } }
  let s₃ := { s₂.setPhase 0 .locked with locks := { opened with handles := [⟨key, 0, .guard⟩] } }
  let s₄ := s₃.setPhase 0 (.resolved .discardStagedRow)
  let reservation : CommittedReservation := (requests 0).spec.reservation true
  let s₅ := { s₄.setPhase 0 (.reserved .discardStagedRow reservation) with
    tables := (reserve ⟨true, 0⟩ s₄.tables (requests 0).spec).2 }
  let s₆ := s₅.setPhase 0 (.contacted .discardStagedRow reservation false)
  let s₇ := (s₆.setPhase 0 (.contacted .discardStagedRow reservation true)).mark (requests 0)
  have h₁ : moves s₀ s₁ := .lockTraffic (.get key)
  have h₂ : moves s₁ s₂ := .lockTraffic (.wait [] [] rfl)
  have h₃ : moves s₂ s₃ := .lock 0 rfl (.acquire [] [] rfl rfl)
  have h₄ : moves s₃ s₄ := .resolve 0 rfl .discardStagedRow
  have hreserve : (reserve ⟨true, 0⟩ Tables.empty (requests 0).spec).1 = .ok reservation := by
    decide +kernel
  have h₅ : moves s₄ s₅ := by
    have hstep : moves s₄ _ := .reserve 0 rfl
    rw [show (reserve ⟨true, 0⟩ s₄.tables (requests 0).spec).1 = .ok reservation from hreserve] at hstep
    exact hstep
  have h₆ : moves s₅ s₆ := .contact 0 rfl .discardStagedRow
  have h₇ : moves s₆ s₇ := .produce 0 rfl
  obtain ⟨hpair, hprotected⟩ := no_slashable_pair_signed
    (((((((Relation.ReflTransGen.single h₁).tail h₂).tail h₃).tail h₄).tail h₅).tail h₆).tail h₇)
  have hslashable : SlashablePair SampleVote.inner .outer := ⟨by decide, by decide⟩
  exact ⟨s₇, .inl rfl, hprotected key .inner (.inl rfl), fun houter =>
    hpair key .inner .outer (.inl rfl) houter hslashable⟩

end Rvc.Signer
