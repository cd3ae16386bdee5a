import Rvc.KeymanagerAdapters.Delete
import Rvc.Lib.Counting

/-!
# What the export of a DELETE covers

A DELETE with the key in its snapshot closes the gate, finds no task inside the lock, and exports. From then
on no task hands out a signature until an import reopens the gate, and no import does so while the DELETE is
counted. So what is signed until then is in the export.

Three steps break this (`Careful` excludes them). The guard of `delete_keystore` asks whether *some* DELETE has
the key in its snapshot, so a DELETE without it removes the key next to one with it. A row that was left over is
reported as a deleted key, with no export. And `quiesce` closes nothing when the key, admitted by the provider
of secrets and dropped again, is absent just then.
-/

namespace Rvc.KeymanagerAdapters

open Rvc.Lib Rvc.Slashing Rvc.Signer List DeletePhase

variable {M : Type}

/-! ### Traces -/

section

variable [SlashableMessage M] (pubkey : PubkeyBytes)

def Covers (trace : List (Event M)) (t : Tables) : Prop :=
  ∀ m, .released m ∈ trace → t.Records (identityOf pubkey m)

/-- Every DELETE that reports the key deleted has read the row of every message that was signed before, or
after it and before the next import. -/
def Complete (trace : List (Event M)) : Prop :=
  ∀ later exported before, trace = later ++ .reported .deleted exported :: before →
    ∀ m, (.released m ∈ before ∨ ∃ newer older, later = newer ++ .released m :: older ∧ .imported ∉ older) →
      ∃ t, exported = some t ∧ t.Records (identityOf pubkey m)

end

def Sealed (trace : List (Event M)) : Prop :=
  ∃ later exported before, trace = later ++ .reported .deleted exported :: before ∧ .imported ∉ later

theorem Sealed.of_cons {event : Event M} {trace : List (Event M)} (h : Sealed (event :: trace)) :
    event ≠ .imported ∧ ((∃ exported, event = .reported .deleted exported) ∨ Sealed trace) := by
  obtain ⟨later, exported, before, htrace, hlater⟩ := h
  cases later with
  | nil =>
    cases htrace
    exact ⟨nofun, .inl ⟨exported, rfl⟩⟩
  | cons first later =>
    obtain ⟨rfl, hrest⟩ := cons.inj htrace
    obtain ⟨hfirst, hlater⟩ := not_or.mp fun h => hlater (mem_cons.mpr h)
    exact ⟨Ne.symm hfirst, .inr ⟨later, exported, before, hrest, hlater⟩⟩

section

variable [SlashableMessage M] {pubkey : PubkeyBytes} {event : Event M} {trace : List (Event M)} {t : Tables}

theorem Covers.cons (h : Covers pubkey trace t) (hevent : ∀ m, event ≠ .released m) :
    Covers pubkey (event :: trace) t := by
  intro m hm
  rcases mem_cons.mp hm with rfl | hm
  · exact absurd rfl (hevent m)
  · exact h m hm

theorem Complete.cons (h : Complete pubkey trace) (hreported : ∀ exported, event = .reported .deleted exported →
      ∃ t, exported = some t ∧ Covers pubkey trace t)
    (hreleased : ∀ m, event = .released m → ¬ Sealed trace) : Complete pubkey (event :: trace) := by
  intro later exported before htrace m hm
  cases later with
  | nil =>
    cases htrace
    obtain ⟨t, rfl, hcovers⟩ := hreported exported rfl
    rcases hm with hm | ⟨newer, older, hnil, -⟩
    · exact ⟨t, rfl, hcovers m hm⟩
    · simp at hnil
  | cons first later =>
    obtain ⟨rfl, hrest⟩ := cons.inj htrace
    refine h later exported before hrest m ?_
    rcases hm with hm | ⟨newer, older, hlater, holder⟩
    · exact .inl hm
    · cases newer with
      | nil =>
        -- the new event is a signature: the key was imported since it was reported deleted
        cases hlater
        exact absurd ⟨later, exported, before, hrest, holder⟩ (hreleased m rfl)
      | cons _ newer => exact .inr ⟨newer, older, (cons.inj hlater).2, holder⟩

end

/-! ### Phases of a DELETE -/

namespace DeletePhase

def inFlight : DeletePhase → Bool
  | waiting => false
  | ended => false
  | _ => true

def exported? : DeletePhase → Option Tables
  | serving exported => exported
  | checked exported => exported
  | purging exported => exported
  | unmapping exported => exported
  | configuring exported _ => exported
  | _ => none

def isMember : DeletePhase → Bool
  | counted member => member
  | disabled => true
  | quiescing => true
  | drained => true
  | leaving member => member
  | phase => phase.exported?.isSome

def isDrained : DeletePhase → Bool
  | drained => true
  | phase => phase.exported?.isSome

def isQuiesced : DeletePhase → Bool
  | quiescing => true
  | phase => phase.isDrained

/-- Inside the branch of `delete_keystore` that removes, or past it. -/
def removes : DeletePhase → Bool
  | purging _ => true
  | unmapping _ => true
  | configuring _ present => present
  | _ => false

theorem isDrained_of_exported {phase : DeletePhase} {t : Tables} (h : phase.exported? = some t) :
    phase.isDrained = true := by
  cases phase <;> cases h <;> rfl

inductive AfterExport (exported : Option Tables) : DeletePhase → Prop
  | serving : AfterExport exported (.serving exported)
  | checked : AfterExport exported (.checked exported)
  | purging : AfterExport exported (.purging exported)
  | unmapping : AfterExport exported (.unmapping exported)
  | configuring {present : Bool} : AfterExport exported (.configuring exported present)

namespace AfterExport

variable {exported : Option Tables} {phase : DeletePhase}

section

variable (h : phase.AfterExport exported)

include h

theorem inFlight_eq : phase.inFlight = true := by cases h <;> rfl

theorem exported_eq : phase.exported? = exported := by cases h <;> rfl

theorem isMember_eq : phase.isMember = exported.isSome := by cases h <;> rfl

theorem isDrained_eq : phase.isDrained = exported.isSome := by cases h <;> rfl

theorem isQuiesced_eq : phase.isQuiesced = exported.isSome := by cases h <;> rfl

end

end AfterExport

theorem isQuiesced_of_isDrained {phase : DeletePhase} (h : phase.isDrained = true) : phase.isQuiesced = true := by
  cases phase <;> first | rfl | exact h

theorem isMember_of_isQuiesced {phase : DeletePhase} (h : phase.isQuiesced = true) : phase.isMember = true := by
  cases phase <;> first | rfl | exact h | cases h

end DeletePhase

/-- The steps that keep the export complete: when the key is quiesced it is local or was quiesced before; a
DELETE that calls `delete_keystore` has the key in its snapshot, or the key is absent or in nobody's; and one that
drops the row has the key in its snapshot, or there is no row. -/
def Careful (s : State) : Action → Prop
  | .delete _ .quiesce => s.keys.isLocal = true ∨ s.keys.quiesced = true
  | .delete i (.deleteKeystore _) =>
      (s.deletes i).isMember = true ∨ s.keys.isLocal = false ∨ s.keys.perKey = 0
  | .delete i (.removeRow _) => (s.deletes i).isMember = true ∨ s.keys.hasRow = false
  | _ => True

instance (s : State) (action : Action) : Decidable (Careful s action) := by
  unfold Careful
  split <;> infer_instance

/-! ### What a step of a DELETE does -/

def Event.Fits (phase : DeletePhase) : Event M → Prop
  | released _ => False
  | imported => False
  | removed exported => exported.isSome = true
  | reported status exported => status = .deleted → ∃ t, exported = some t ∧ phase.exported? = some t

structure DeleteSpec (tables : Tables) (keys keys' : Keys) (phase phase' : DeletePhase)
    (event : Option (Event M)) : Prop where
  quiesced : keys.quiesced = true → keys'.quiesced = true
  tracked : ∀ i, keys.tracked = some (.importing i) → keys'.tracked = keys.tracked ∧ keys'.perKey = keys.perKey
  flights : keys'.requests + phase.inFlight.toNat = keys.requests + phase'.inFlight.toNat
  members : keys'.perKey + phase.isMember.toNat = keys.perKey + phase'.isMember.toNat
  isQuiesced : phase'.isQuiesced = true → phase.isQuiesced = true ∨ keys'.quiesced = true
  isDrained : phase'.isDrained = true → phase.isDrained = true
  exported : ∀ t, phase'.exported? = some t → phase.exported? = some t ∨ t = tables
  removes : phase'.removes = true → phase'.isMember = true
  fits : ∀ e, event = some e → e.Fits phase

section

variable {tables : Tables} {i : Nat} {keys keys' : Keys} {phase phase' : DeletePhase}
  {event : Option (Event M)} {fails : Bool} {exported : Option Tables}

theorem DeleteSpec.afterExport (hphase : phase.AfterExport exported) (hphase' : phase'.AfterExport exported)
    (hgate : keys.SameGate keys') (htracked : ∀ i, keys.tracked = some (.importing i) → keys'.tracked = keys.tracked)
    (hremoves : phase'.removes = true → exported.isSome = true) (hfits : ∀ e, event = some e → e.Fits phase) :
    DeleteSpec tables keys keys' phase phase' event where
  quiesced h := hgate.quiesced.trans h
  tracked i h := ⟨htracked i h, hgate.perKey⟩
  flights := by rw [hphase.inFlight_eq, hphase'.inFlight_eq, hgate.requests]
  members := by rw [hphase.isMember_eq, hphase'.isMember_eq, hgate.perKey]
  isQuiesced h := by
    rw [hphase'.isQuiesced_eq] at h
    rw [hphase.isQuiesced_eq]
    exact .inl h
  isDrained h := by
    rw [hphase'.isDrained_eq] at h
    rw [hphase.isDrained_eq]
    exact h
  exported t h := by
    rw [hphase'.exported_eq] at h
    rw [hphase.exported_eq]
    exact .inl h
  removes h := by
    rw [hphase'.isMember_eq]
    exact hremoves h
  fits := hfits

theorem DeleteSpec.reported_error (hphase : phase.AfterExport exported) (message : String) :
    DeleteSpec tables keys keys phase (.serving exported)
      (some (.reported (.error message) exported) : Option (Event M)) :=
  .afterExport hphase .serving ⟨rfl, rfl, rfl⟩ (fun _ _ => rfl) nofun (by simp [Event.Fits])

/-- A step to a phase without a drain behind it, which leaves the stores as they are. -/
theorem DeleteSpec.of_not_quiesced (hflight : phase'.inFlight = phase.inFlight)
    (hmember : phase'.isMember = phase.isMember) (hquiesced : phase'.isQuiesced = false)
    (hremoves : phase'.removes = false) : DeleteSpec tables keys keys phase phase' (none : Option (Event M)) where
  quiesced := id
  tracked _ _ := ⟨rfl, rfl⟩
  flights := by rw [hflight]
  members := by rw [hmember]
  isQuiesced h := absurd h (by simp [hquiesced])
  isDrained h := absurd (DeletePhase.isQuiesced_of_isDrained h) (by simp [hquiesced])
  exported t h :=
    absurd (isQuiesced_of_isDrained (isDrained_of_exported h)) (by simp [hquiesced])
  removes h := absurd h (by simp [hremoves])
  fits := nofun

theorem tracked_ne_importing (h : keys.tracked.isSome = false) (j : Nat) : keys.tracked ≠ some (.importing j) := by
  intro hj
  rw [hj] at h
  cases h

theorem count_spec (hfree : keys.tracked.isSome = false) : DeleteSpec tables keys
      { keys with requests := keys.requests + 1, perKey := keys.perKey + keys.isLocal.toNat }
      .waiting (.counted keys.isLocal) (none : Option (Event M)) := by
  refine ⟨id, fun j hj => absurd hj (tracked_ne_importing hfree j), rfl, ?_, nofun, nofun, nofun, nofun, nofun⟩
  simp [isMember, exported?]

/-- The key is local or was quiesced before, so it is quiesced after. -/
theorem quiesce_spec (hcareful : keys.isLocal = true ∨ keys.quiesced = true) :
    DeleteSpec tables keys { keys with quiesced := keys.quiesced || keys.isLocal } .disabled .quiescing
      (none : Option (Event M)) := by
  refine ⟨fun hq => ?_, fun _ _ => ⟨rfl, rfl⟩, rfl, rfl, fun _ => .inr ?_, nofun, nofun, nofun, nofun⟩
  · simp [hq]
  · rcases hcareful with hlocal | hquiesced
    · simp [hlocal]
    · simp [hquiesced]

theorem exportInterchange_spec :
    DeleteSpec tables keys keys .drained (if fails then .leaving true else .serving (some tables))
      (none : Option (Event M)) := by
  cases fails with
  | true => exact .of_not_quiesced rfl rfl rfl rfl
  | false =>
    exact ⟨id, fun _ _ => ⟨rfl, rfl⟩, rfl, rfl, fun _ => .inl rfl, fun _ => rfl,
      fun t ht => .inr (Option.some.inj ht).symm, nofun, nofun⟩

theorem deleteKeystore_spec (hrequests : 0 < keys.requests) (hfree : keys.tracked.isSome = false)
    (hcareful : exported.isSome = true ∨ keys.isLocal = false ∨ keys.perKey = 0)
    (h : deleteKeystore fails i keys exported = (phase', keys', event)) :
    DeleteSpec tables keys keys' (.checked exported) phase' event := by
  unfold deleteKeystore at h
  split at h
  · cases h
    exact .reported_error .checked _
  next hrefuse =>
  split at h
  · cases h
    exact .reported_error .checked _
  split at h
  · cases h
    exact .afterExport .checked .configuring ⟨rfl, rfl, rfl⟩ (fun _ _ => rfl) nofun nofun
  next hlocal =>
  cases h
  refine .afterExport .checked .purging ⟨rfl, rfl, rfl⟩ (fun j hj => absurd hj (tracked_ne_importing hfree j))
    (fun _ => ?_) nofun
  -- the key is local and not refused, so it is in a snapshot
  simp only [Bool.not_eq_true', Bool.not_eq_false] at hlocal
  have hperKey : keys.perKey ≠ 0 := by
    intro hzero
    simp [hrequests, hlocal, hzero] at hrefuse
  rcases hcareful with hmember | habsent | hnobody
  · exact hmember
  · rw [habsent] at hlocal
    cases hlocal
  · exact absurd hnobody hperKey

theorem removeLocalKey_spec (hmember : exported.isSome = true) :
    DeleteSpec tables keys { keys with isLocal := false } (.purging exported) (.unmapping exported)
      (if keys.isLocal then some (.removed exported : Event M) else none) := by
  refine .afterExport .purging .unmapping ⟨rfl, rfl, rfl⟩ (fun _ _ => rfl) (fun _ => hmember) fun e he => ?_
  split at he
  · cases he
    exact hmember
  · cases he

theorem removeFromMap_spec (howner : keys.tracked = some (.deleting i)) (hmember : exported.isSome = true) :
    DeleteSpec tables keys { keys with inMap := false, tracked := none } (.unmapping exported)
      (.configuring exported true) (none : Option (Event M)) := by
  refine .afterExport .unmapping .configuring ⟨rfl, rfl, rfl⟩ (fun j hj => ?_) (fun _ => hmember) nofun
  rw [howner] at hj
  cases hj

theorem removeRow_spec {present : Bool} (hpresent : present = true → exported.isSome = true)
    (hcareful : exported.isSome = true ∨ keys.hasRow = false) :
    DeleteSpec tables keys { keys with hasRow := false } (.configuring exported present) (.serving exported)
      (some (.reported (if keys.hasRow || present then .deleted else .notFound) exported) : Option (Event M)) := by
  refine .afterExport .configuring .serving ⟨rfl, rfl, rfl⟩ (fun _ _ => rfl) nofun fun e he => ?_
  cases he
  intro hdeleted
  have hmember : exported.isSome = true := by
    rcases hcareful with hmember | hrow
    · exact hmember
    · refine hpresent ?_
      cases present with
      | true => rfl
      | false => simp [hrow] at hdeleted
  exact (Option.isSome_iff_exists.mp hmember).imp fun t ht => ⟨ht, ht⟩

theorem endExport_spec {member : Bool} (hfree : keys.tracked.isSome = false) (hrequests : 0 < keys.requests)
    (hperKey : member = true → 0 < keys.perKey) :
    DeleteSpec tables keys { keys with requests := keys.requests - 1, perKey := keys.perKey - member.toNat }
      (.leaving member) .ended (none : Option (Event M)) := by
  refine ⟨id, fun j hj => absurd hj (tracked_ne_importing hfree j), ?_, ?_, nofun, nofun, nofun, nofun, nofun⟩
  · show keys.requests - 1 + 1 = keys.requests + 0
    omega
  · cases member with
    | false => rfl
    | true => exact Nat.sub_add_cancel (hperKey rfl)

/-- **What a careful step of a DELETE does**, to the stores and to the DELETE itself. -/
theorem DeleteAction.run_spec {s : State} {action : DeleteAction} (hphase : s.deletes i = phase)
    (hrequests : phase.inFlight = true → 0 < s.keys.requests) (hperKey : phase.isMember = true → 0 < s.keys.perKey)
    (hremoves : phase.removes = true → phase.isMember = true) (hcareful : Careful s (.delete i action))
    (h : action.run s.gate.tables i s.keys phase = some (phase', keys', event)) :
    DeleteSpec s.gate.tables s.keys keys' phase phase' event := by
  unfold DeleteAction.run at h
  split at h
  · -- count
    split_ifs at h with hlocked
    cases h
    exact count_spec (by simpa using hlocked)
  · -- disable
    cases h
    split <;> exact .of_not_quiesced rfl rfl rfl rfl
  · -- skipExport
    cases h
    exact .of_not_quiesced rfl rfl rfl rfl
  · -- quiesce
    split_ifs at h
    cases h
    exact quiesce_spec hcareful
  · -- giveUp
    cases h
    exact .of_not_quiesced rfl rfl rfl rfl
  · -- exportInterchange
    cases h
    exact exportInterchange_spec
  · -- checkHasKey
    split_ifs at h
    · cases h
      exact .reported_error .serving _
    · cases h
      exact .afterExport .serving .checked ⟨rfl, rfl, rfl⟩ (fun _ _ => rfl) nofun nofun
  · -- deleteKeystore
    split_ifs at h with hlocked
    simp only [Careful, hphase] at hcareful
    exact deleteKeystore_spec (hrequests rfl) (by simpa using hlocked) hcareful (Option.some.inj h)
  · -- removeLocalKey
    split at h
    case isFalse => cases h
    cases h
    exact removeLocalKey_spec (hremoves rfl)
  · -- removeFromMap
    split_ifs at h with howner
    cases h
    exact removeFromMap_spec howner (hremoves rfl)
  · -- removeRow
    split at h
    · cases h
      exact .reported_error .configuring _
    · cases h
      simp only [Careful, hphase] at hcareful
      exact removeRow_spec hremoves hcareful
  · -- leave
    cases h
    exact .of_not_quiesced rfl rfl rfl rfl
  · -- endExport
    split_ifs at h with hlocked
    cases h
    exact endExport_spec (by simpa using hlocked) (hrequests rfl) hperKey
  · cases h

end

end Rvc.KeymanagerAdapters
