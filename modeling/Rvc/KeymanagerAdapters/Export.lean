import Rvc.KeymanagerAdapters.Coverage

/-!
# The export of a DELETE is complete

The invariant of careful runs. The counters count the deletes in flight and the snapshots with the key: when
the gate is reopened by an import, no DELETE with the key is between its quiesce and its end. Closed means more
than quiesced: no task is past its enablement check. It starts with the drain, and lasts as long as the key
stays quiesced.
-/

namespace Rvc.KeymanagerAdapters

open Rvc.Lib Rvc.EthTypes Rvc.Slashing Rvc.Signer Function State DeletePhase List

variable {M : Type} [SlashableMessage M]

/-! ### The invariant -/

structure PhaseInv (requests : Nat → Request M) (pubkey : PubkeyBytes) (trace : List (Event M)) (g : Gate)
    (keys : Keys) (phase : DeletePhase) : Prop where
  quiesced : phase.isQuiesced = true → keys.quiesced = true
  closed : phase.isDrained = true → g.Closed requests pubkey
  covers : ∀ t, phase.exported? = some t → Covers pubkey trace t
  member : phase.removes = true → phase.isMember = true

structure Inv (others : RowIdentity → Prop) (requests : Nat → Request M) (pubkey : PubkeyBytes)
    (trace : List (Event M)) (s : State) : Prop where
  gate : GateInv others (fun _ => False) requests s.gate
  flights : Counts (fun i => (s.deletes i).inFlight) s.keys.requests
  members : Counts (fun i => (s.deletes i).isMember) s.keys.perKey
  /-- An import that is about to reopen the gate keeps deletes from being counted. -/
  readmitting : ∀ i, s.imports i = .readmitting false →
    s.keys.tracked = some (.importing i) ∧ s.keys.perKey = 0
  released : ∀ m, .released m ∈ trace → ∃ i signature, (requests i).pubkey = pubkey ∧
    (requests i).message = m ∧ s.gate.phase i = .finished (.ok signature)
  deletes : ∀ i, PhaseInv requests pubkey trace s.gate s.keys (s.deletes i)
  closed : Sealed trace → s.keys.quiesced = true ∧ s.gate.Closed requests pubkey
  complete : Complete pubkey trace
  removed : ∀ exported, .removed exported ∈ trace → exported.isSome = true

section

variable {others : RowIdentity → Prop} {requests : Nat → Request M} {pubkey : PubkeyBytes}
  {trace : List (Event M)} {s : State} {i : Nat}

namespace Inv

theorem new {tables : Tables} {keys : Keys} (hsound : tables.Sound fun id => KnownIdentity M id ∨ others id)
    (hrequests : keys.requests = 0) (hperKey : keys.perKey = 0) : Inv others requests pubkey [] (.new tables keys) where
  gate := .new nofun hsound ⟨nofun, nofun⟩
  flights := by
    show Counts _ keys.requests
    rw [hrequests]
    exact .zero
  members := by
    show Counts _ keys.perKey
    rw [hperKey]
    exact .zero
  readmitting := nofun
  released := nofun
  deletes _ := ⟨nofun, nofun, nofun, nofun⟩
  closed := by
    rintro ⟨later, exported, before, htrace, -⟩
    simp at htrace
  complete := by
    intro later exported before htrace
    simp at htrace
  removed := nofun

section

variable (h : Inv others requests pubkey trace s)

include h

theorem covers_tables : Covers pubkey trace s.gate.tables := by
  intro m hm
  obtain ⟨i, signature, rfl, rfl, hphase⟩ := h.released m hm
  refine h.gate.keeps.recorded _ (.inl ⟨i, ?_, rfl⟩)
  rw [hphase]
  rfl

theorem rekey {keys : Keys} {imports : Nat → ImportPhase} {admissions : Nat → AdmitPhase} (hgate : s.keys.SameGate keys)
    (hreadmitting : ∀ i, imports i = .readmitting false → keys.tracked = some (.importing i) ∧ keys.perKey = 0) :
    Inv others requests pubkey trace { s with keys := keys, imports := imports, admissions := admissions } where
  gate := h.gate
  flights := hgate.requests.symm ▸ h.flights
  members := hgate.perKey.symm ▸ h.members
  readmitting := hreadmitting
  released := h.released
  deletes i := ⟨fun hq => hgate.quiesced.trans ((h.deletes i).quiesced hq), (h.deletes i).closed,
    (h.deletes i).covers, (h.deletes i).member⟩
  closed hsealed := ⟨hgate.quiesced.trans (h.closed hsealed).1, (h.closed hsealed).2⟩
  complete := h.complete
  removed := h.removed

theorem admitSecret (fails : Bool) : Inv others requests pubkey trace (s.admitSecret i fails) := by
  have hgate := (s.admissions i).next_sameGate .rawSecret fails s.keys
  refine h.rekey hgate fun j hj => ?_
  obtain ⟨htracked, hperKey⟩ := h.readmitting j hj
  exact ⟨((s.admissions i).next_tracked .rawSecret fails s.keys).trans htracked, hgate.perKey.trans hperKey⟩

theorem readmitting_eq (hmay : s.mayImport i = true) {j : Nat} (hj : s.imports j = .readmitting false) : j = i := by
  have htracked := (h.readmitting j hj).1
  unfold mayImport at hmay
  rw [htracked] at hmay
  split at hmay
  · cases hmay
  · cases hmay
  · simpa using hmay

theorem importKeystore (hmay : s.mayImport i = true)
    (windowed : Bool) (faults : ImportFaults) (hphase : ∀ b, s.imports i ≠ .readmitting b) :
    Inv others requests pubkey trace (s.importKeystore (M := M) i windowed faults).1 := by
  have hgate := ImportPhase.next_sameGate windowed faults i s.keys hphase
  have hlook := @ImportPhase.next_readmitting windowed faults i s.keys (s.imports i) false
  unfold State.importKeystore
  generalize (s.imports i).next windowed faults i s.keys = next at hgate hlook
  obtain ⟨phase, keys⟩ := next
  refine h.rekey hgate ((forall_update_iff s.imports fun _ phase => phase = .readmitting false → _).mpr
    ⟨fun hi => ?_, fun j hji hj => absurd (h.readmitting_eq hmay hj) hji⟩)
  obtain ⟨hsettling, hb, rfl⟩ := hlook hi
  refine ⟨?_, by simpa using hb⟩
  simpa [State.mayImport, hsettling] using hmay

theorem readmit (hmay : s.mayImport i = true)
    {b : Bool} (hphase : s.imports i = .readmitting b) {imports : Nat → ImportPhase}
    (himports : ∀ j, imports j = .readmitting false → j ≠ i ∧ s.imports j = .readmitting false) :
    Inv others requests pubkey (.imported :: trace)
      { s with keys := (if b then s.keys else { s.keys with quiesced := false }).release, imports := imports } := by
  have hquiesced : ∀ j, (s.deletes j).isQuiesced = true →
      (if b then s.keys else { s.keys with quiesced := false }).quiesced = true := by
    intro j hj
    cases b with
    | true => exact (h.deletes j).quiesced hj
    | false =>
      have hpos := h.members.pos (i := j) (isMember_of_isQuiesced hj)
      rw [(h.readmitting i hphase).2] at hpos
      exact absurd hpos (Nat.lt_irrefl 0)
  have hcounts : (if b then s.keys else { s.keys with quiesced := false }).requests = s.keys.requests ∧
      (if b then s.keys else { s.keys with quiesced := false }).perKey = s.keys.perKey := by
    cases b <;> exact ⟨rfl, rfl⟩
  exact {
    gate := h.gate
    flights := hcounts.1.symm ▸ h.flights
    members := hcounts.2.symm ▸ h.members
    readmitting := fun j hj => by
      obtain ⟨hji, hj⟩ := himports j hj
      exact absurd (h.readmitting_eq hmay hj) hji
    released := fun m hm => h.released m ((mem_cons.mp hm).resolve_left nofun)
    deletes := fun j => ⟨hquiesced j, (h.deletes j).closed, fun t ht => ((h.deletes j).covers t ht).cons nofun,
      (h.deletes j).member⟩
    closed := fun hsealed => absurd rfl hsealed.of_cons.1
    complete := h.complete.cons nofun nofun
    removed := fun exported hm => h.removed exported ((mem_cons.mp hm).resolve_left nofun) }

theorem of_fits {event : Event M} {phase : DeletePhase} (hphase : s.deletes i = phase) (hfits : event.Fits phase) :
    Inv others requests pubkey (event :: trace) s where
  gate := h.gate
  flights := h.flights
  members := h.members
  readmitting := h.readmitting
  released m hm := by
    rcases mem_cons.mp hm with rfl | hm
    · exact hfits.elim
    · exact h.released m hm
  deletes j := by
    refine ⟨(h.deletes j).quiesced, (h.deletes j).closed, fun t ht => ((h.deletes j).covers t ht).cons ?_,
      (h.deletes j).member⟩
    rintro m rfl
    exact hfits
  closed hsealed := by
    rcases hsealed.of_cons.2 with ⟨exported, rfl⟩ | hsealed
    · obtain ⟨t, -, ht⟩ := hfits rfl
      have hdrained := isDrained_of_exported ht
      rw [← hphase] at hdrained
      exact ⟨(h.deletes i).quiesced (isQuiesced_of_isDrained hdrained), (h.deletes i).closed hdrained⟩
    · exact h.closed hsealed
  complete := by
    refine h.complete.cons (fun exported hevent => ?_) fun m hevent => ?_
    · subst hevent
      obtain ⟨t, rfl, ht⟩ := hfits rfl
      exact ⟨t, rfl, (h.deletes i).covers t (hphase ▸ ht)⟩
    · subst hevent
      exact hfits.elim
  removed exported hm := by
    rcases mem_cons.mp hm with rfl | hm
    · exact hfits
    · exact h.removed exported hm

end

variable {event : Option (Event M)}

theorem afterDelete (h : Inv others requests pubkey trace s) {phase' : DeletePhase} {keys' : Keys}
    (hspec : DeleteSpec s.gate.tables s.keys keys' (s.deletes i) phase' event) :
    Inv others requests pubkey trace (s.afterDelete i phase' keys') where
  gate := h.gate
  flights := by
    have hcounts := h.flights.update (i := i) (b := phase'.inFlight) hspec.flights
    rwa [← comp_def inFlight, ← comp_update] at hcounts
  members := by
    have hcounts := h.members.update (i := i) (b := phase'.isMember) hspec.members
    rwa [← comp_def isMember, ← comp_update] at hcounts
  readmitting j hj := by
    obtain ⟨htracked, hperKey⟩ := h.readmitting j hj
    obtain ⟨htracked', hperKey'⟩ := hspec.tracked j htracked
    exact ⟨htracked'.trans htracked, hperKey'.trans hperKey⟩
  released := h.released
  deletes := by
    refine (forall_update_iff s.deletes fun _ phase =>
      PhaseInv requests pubkey trace s.gate keys' phase).mpr ⟨⟨fun hq => ?_, fun hd => ?_, fun t ht => ?_, ?_⟩, ?_⟩
    · exact (hspec.isQuiesced hq).elim (fun hold => hspec.quiesced ((h.deletes i).quiesced hold)) id
    · exact (h.deletes i).closed (hspec.isDrained hd)
    · rcases hspec.exported t ht with hold | rfl
      · exact (h.deletes i).covers t hold
      · exact h.covers_tables
    · exact hspec.removes
    · intro j _
      exact ⟨fun hq => hspec.quiesced ((h.deletes j).quiesced hq), (h.deletes j).closed, (h.deletes j).covers,
        (h.deletes j).member⟩
  closed hsealed := ⟨hspec.quiesced (h.closed hsealed).1, (h.closed hsealed).2⟩
  complete := h.complete
  removed := h.removed

theorem delete (h : Inv others requests pubkey trace s) {action : DeleteAction} {phase' : DeletePhase}
    {keys' : Keys} (hcareful : Careful s (.delete i action))
    (hrun : action.run s.gate.tables i s.keys (s.deletes i) = some (phase', keys', event)) :
    Inv others requests pubkey (event.toList ++ trace) (s.afterDelete i phase' keys') := by
  have hspec := DeleteAction.run_spec rfl (fun hf => h.flights.pos hf) (fun hm => h.members.pos hm)
    (h.deletes i).member hcareful hrun
  cases event with
  | none => exact h.afterDelete hspec
  | some event =>
    have htold := h.of_fits rfl (hspec.fits event rfl)
    exact htold.afterDelete hspec

variable {db : SlashingDb} {capacity : Nat}

theorem sign (hothers : Foreign M others) (h : Inv others requests pubkey trace s) {g : Gate}
    {label : GateLabel} (hstep : GateStep db capacity requests label s.gate g)
    (hgate : ∀ i, label = .enabled i → (requests i).pubkey = pubkey → s.keys.quiesced = false) :
    Inv others requests pubkey ((releasedBy requests pubkey s.gate label).toList ++ trace)
      { s with gate := g } := by
  have hclosed : s.keys.quiesced = true → s.gate.Closed requests pubkey → g.Closed requests pubkey := by
    intro hquiesced hclosed
    refine hclosed.step hstep fun i hi hpubkey => ?_
    rw [hgate i hi hpubkey] at hquiesced
    cases hquiesced
  have hmoved : Inv others requests pubkey trace { s with gate := g } := {
    gate := h.gate.step hothers hstep
    flights := h.flights
    members := h.members
    readmitting := h.readmitting
    released := fun m hm => by
      obtain ⟨i, signature, hpubkey, hmessage, hphase⟩ := h.released m hm
      exact ⟨i, signature, hpubkey, hmessage, hstep.finished hphase⟩
    deletes := fun j => ⟨(h.deletes j).quiesced, fun hd => hclosed ((h.deletes j).quiesced
      (isQuiesced_of_isDrained hd)) ((h.deletes j).closed hd), (h.deletes j).covers,
      (h.deletes j).member⟩
    closed := fun hsealed => ⟨(h.closed hsealed).1, hclosed (h.closed hsealed).1 (h.closed hsealed).2⟩
    complete := h.complete
    removed := h.removed }
  unfold releasedBy
  split
  case h_2 => exact hmoved
  next i =>
  split
  case h_2 => exact hmoved
  next signature hphase =>
  split
  case isFalse => exact hmoved
  next hpubkey =>
  have hopen : ¬ s.gate.Closed requests pubkey := by
    intro hclosed
    have hidle := hclosed i hpubkey
    rw [hphase] at hidle
    cases hidle
  exact {
    gate := hmoved.gate
    flights := hmoved.flights
    members := hmoved.members
    readmitting := hmoved.readmitting
    released := fun m hm => by
      rcases mem_cons.mp hm with heq | hm
      · cases heq
        exact ⟨i, signature, hpubkey, rfl, hstep.answered hphase⟩
      · exact hmoved.released m hm
    deletes := fun j => ⟨(hmoved.deletes j).quiesced, (hmoved.deletes j).closed, fun t ht =>
      absurd ((h.deletes j).closed (isDrained_of_exported ht)) hopen, (hmoved.deletes j).member⟩
    closed := fun hsealed => by
      rcases hsealed.of_cons.2 with ⟨exported, heq⟩ | hsealed
      · cases heq
      · exact hmoved.closed hsealed
    complete := hmoved.complete.cons nofun fun m _ hsealed => hopen (h.closed hsealed).2
    removed := fun exported hm => hmoved.removed exported ((mem_cons.mp hm).resolve_left nofun) }

theorem drain (h : Inv others requests pubkey trace s) {locks locks' : LockState}
    (hphase : s.deletes i = .quiescing) (hacquire : LockStep capacity (.acquired pubkey) s.gate.locks locks)
    (hdrop : LockStep capacity (.released pubkey) locks locks') : Inv others requests pubkey trace
      { s.afterDelete i .drained s.keys with gate := { s.gate with locks := locks' } } := by
  obtain ⟨htasks, hidle⟩ := h.gate.tasks.drain hacquire hdrop
  have hclosed : s.gate.Closed requests pubkey := fun j hj => Phase.isIdle_of_holdsLock (hidle j hj)
  have hgate : GateInv others (fun _ => False) requests { s.gate with locks := locks' } :=
    ⟨htasks, h.gate.sound, h.gate.own, h.gate.foreign, h.gate.keeps, h.gate.sole⟩
  have hquiesced : s.keys.quiesced = true := (h.deletes i).quiesced (by rw [hphase]; rfl)
  exact {
    gate := hgate
    flights := by
      have hcounts := h.flights.update (i := i) (b := drained.inFlight) (by rw [hphase]; rfl)
      rwa [← comp_def inFlight, ← comp_update] at hcounts
    members := by
      have hcounts := h.members.update (i := i) (b := drained.isMember) (by rw [hphase]; rfl)
      rwa [← comp_def isMember, ← comp_update] at hcounts
    readmitting := h.readmitting
    released := h.released
    deletes := (forall_update_iff s.deletes fun _ phase =>
      PhaseInv requests pubkey trace { s.gate with locks := locks' } s.keys phase).mpr
      ⟨⟨fun _ => hquiesced, fun _ => hclosed, nofun, nofun⟩, fun j _ =>
        ⟨(h.deletes j).quiesced, (h.deletes j).closed, (h.deletes j).covers, (h.deletes j).member⟩⟩
    closed := h.closed
    complete := h.complete
    removed := h.removed }

theorem anyImport (h : Inv others requests pubkey trace s) (hmay : s.mayImport i = true) (windowed : Bool)
    (faults : ImportFaults) :
    Inv others requests pubkey ((s.importKeystore (M := M) i windowed faults).2.toList ++ trace)
      (s.importKeystore (M := M) i windowed faults).1 := by
  by_cases hlast : ∃ b, s.imports i = .readmitting b
  · obtain ⟨b, hphase⟩ := hlast
    have hnext : (s.imports i).next windowed faults i s.keys = (.returned (.ok ()),
        (if b then s.keys else { s.keys with quiesced := false }).release) := by rw [hphase]; rfl
    simp only [State.importKeystore, hnext]
    exact h.readmit hmay hphase ((forall_update_iff s.imports fun j phase => phase = .readmitting false → j ≠ i ∧ _).mpr
      ⟨nofun, fun j hji hj => ⟨hji, hj⟩⟩)
  · have hphase : ∀ b, s.imports i ≠ .readmitting b := fun b hb => hlast ⟨b, hb⟩
    have hquiet : (s.importKeystore (M := M) i windowed faults).2 = none := by
      have hok := @ImportPhase.next_returned_ok windowed faults i s.keys (s.imports i)
      unfold State.importKeystore
      generalize (s.imports i).next windowed faults i s.keys = next at hok
      obtain ⟨phase, keys⟩ := next
      dsimp only
      split
      · -- only the last step succeeds, and an import that has returned does not step
        rcases hok rfl with hlast' | hreturned
        · exact absurd hlast' hlast
        · simp [State.mayImport, hreturned] at hmay
      · rfl
    rw [hquiet]
    exact h.importKeystore hmay windowed faults hphase

theorem step (hothers : Foreign M others) (h : Inv others requests pubkey trace s) {s' : State} {action : Option Action}
    (hstep : Step db capacity pubkey requests action event s s') (hcareful : ∀ a, action = some a → Careful s a) :
    Inv others requests pubkey (event.toList ++ trace) s' := by
  cases hstep with
  | sign hgate hquiesced => exact h.sign hothers hgate hquiesced
  | drain i hphase hacquire hdrop => exact h.drain hphase hacquire hdrop
  | @act _ _ action _ hrun =>
    cases action with
    | importKeystore i windowed faults =>
      obtain ⟨hmay, heq⟩ := Option.ite_none_right_eq_some.mp hrun
      cases heq
      exact h.anyImport hmay windowed faults
    | admitSecret i fails =>
      cases hrun
      exact h.admitSecret fails
    | delete i action =>
      dsimp only [Action.run] at hrun
      split at hrun
      · next phase keys event hdelete =>
        cases hrun
        exact h.delete (hcareful _ rfl) hdelete
      · cases hrun

end Inv

theorem Run.inv {db : SlashingDb} {capacity : Nat} {start : State} (hothers : Foreign M others)
    (hstart : Inv others requests pubkey [] start)
    (hrun : Run db capacity pubkey requests Careful start trace s) : Inv others requests pubkey trace s := by
  induction hrun with
  | start => exact hstart
  | step _ hstep hcareful ih => exact ih.step hothers hstep hcareful

end

/-- **The export of a DELETE is complete.** In a run of careful steps, a DELETE that reports the key deleted has
exported the row of every message the key has signed, then and until it is imported again; and no DELETE takes
the key from the signer that has not exported it. The database may have rows of `others`, with roots that no
message of the tasks has. -/
theorem delete_export_complete {others : RowIdentity → Prop} {requests : Nat → Request M}
    {pubkey : PubkeyBytes} {db : SlashingDb} {capacity : Nat} {tables : Tables}
    {isLocal inMap hasRow denylisted : Bool} {trace : List (Event M)} {s : State} (hothers : Foreign M others)
    (hsound : tables.Sound fun id => KnownIdentity M id ∨ others id)
    (hrun : Run db capacity pubkey requests Careful (.new tables (.boot isLocal inMap hasRow denylisted)) trace s) :
    Complete pubkey trace ∧ ∀ exported, .removed exported ∈ trace → exported.isSome = true := by
  have hinv := hrun.inv hothers (.new hsound rfl rfl)
  exact ⟨hinv.complete, hinv.removed⟩

/-! ### Two runs -/

def sampleKey : PubkeyBytes := ⟨List.replicate 48 13, rfl⟩

def sampleRequests (_ : Nat) : Request SampleVote :=
  ⟨sampleKey, .inner, zeroRoot, .fixed .discardStagedRow, "attestation"⟩

theorem reserve_sampleRequests : (reserve ⟨true, 0⟩ Tables.empty (sampleRequests 0).spec).1 =
    .ok ((sampleRequests 0).spec.reservation true) := by
  decide +kernel

/-- A task signs with a key of this process; then a DELETE exports, removes the key and reports it deleted. The
export has the vote. -/
theorem delete_export_complete_signedBefore :
    ∃ t s, Run ⟨true, 0⟩ 800 sampleKey sampleRequests Careful (.new Tables.empty (.boot true true true false))
        [.reported .deleted (some t), .removed (some t), .released .inner] s ∧
      t.Records (identityOf sampleKey SampleVote.inner) := by
  let s₀ : State := .new Tables.empty (.boot true true true false)
  have hstart : Run ⟨true, 0⟩ 800 sampleKey sampleRequests Careful s₀ [] s₀ := .start
  obtain ⟨g, hlocks, -, hsigned⟩ := hstart.signs (i := 0) rfl rfl rfl rfl reserve_sampleRequests
  have hquiesced := hsigned.acts [.delete 0 .count, .delete 0 (.disable false), .delete 0 .quiesce] [] rfl
  have hwaiting := hquiesced.quiet (.lockTraffic (.wait [] [] hlocks)) (.inl rfl)
  have hdrained := hwaiting.step (.drain 0 rfl (.acquire [] [] rfl rfl) (.release [] [] rfl)) nofun
  have hdeleted := hdrained.acts [.delete 0 (.exportInterchange false), .delete 0 .checkHasKey,
    .delete 0 (.deleteKeystore false), .delete 0 .removeLocalKey, .delete 0 .removeFromMap,
    .delete 0 (.removeRow false)] [.reported .deleted (some g.tables), .removed (some g.tables)] rfl
  have hforeign : Foreign SampleVote fun _ => False := nofun
  obtain ⟨hcomplete, -⟩ := delete_export_complete hforeign (.empty none) hdeleted
  have hcovers := hcomplete [] (some g.tables) [.removed (some g.tables), .released .inner] rfl .inner (.inl (by simp))
  obtain ⟨t, ht, hrecords⟩ := hcovers
  cases ht
  exact ⟨_, _, hdeleted, hrecords⟩

/-- A DELETE that found no key is about to delete when the key is imported and signs. Another DELETE counts the
key, so the first one is not refused: it takes the key from the signer, with no export, and reports it deleted. -/
theorem delete_without_export : ∃ trace s, Run ⟨true, 0⟩ 800 sampleKey sampleRequests (fun _ _ => True)
        (.new Tables.empty (.boot false false false false)) trace s ∧
      ¬ Complete sampleKey trace ∧ .removed none ∈ trace := by
  let s₀ : State := .new Tables.empty (.boot false false false false)
  have hstart : Run ⟨true, 0⟩ 800 sampleKey sampleRequests (fun _ _ => True) s₀ [] s₀ := .start
  have hchecked := hstart.acts [.delete 0 .count, .delete 0 .skipExport, .delete 0 .checkHasKey] [] rfl
  let fourSteps : List Action := replicate 4 (.importKeystore 0 false ⟨false, false, false, false⟩)
  have hpublishing := hchecked.acts fourSteps [] rfl
  have hadding := hpublishing.acts fourSteps [] rfl
  have hadmitted := hadding.acts fourSteps [] rfl
  have himported := hadmitted.acts fourSteps [.imported] rfl
  obtain ⟨g, -, -, hsigned⟩ := himported.signs (i := 0) rfl rfl rfl rfl reserve_sampleRequests
  have hdeleted := hsigned.acts [.delete 1 .count, .delete 0 (.deleteKeystore false),
    .delete 0 .removeLocalKey, .delete 0 .removeFromMap, .delete 0 (.removeRow false)]
    [.reported .deleted none, .removed none] rfl
  refine ⟨_, _, hdeleted, fun hcomplete => ?_, by simp⟩
  obtain ⟨t, ht, -⟩ := hcomplete [] none [.removed none, .released .inner, .imported] rfl .inner (.inl (by simp))
  cases ht

end Rvc.KeymanagerAdapters
