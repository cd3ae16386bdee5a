import Rvc.Slashing.GroupQueue
import Rvc.Slashing.ReconcileFrame
import Rvc.Slashing.Shadow

/-!
# The grounds of a rejection

A member of a batch is checked on the view of the batch's transaction: the committed tables, and the rows of the
members accepted before it. A rejection by a rule stands on that view (`group_commit_rejections`). When the batch
commits, it stands on the committed tables too: the members accepted later do not take its grounds away, because
an accepted row is never below the minimum (`SpecAccepted.before`). When the batch does not commit, the
rejected member keeps its error, and the row it stood against may be one that was rolled back.
-/

namespace Rvc.Slashing

open Rvc.Lib Rvc.EthTypes Rvc.Observability List Tables Option Except Prod

/-! ### One slot or target in a column -/

section

variable {ρ : Type} {rows : List ρ} {key : ρ → Int} {repeats : ρ → Bool} {n : Nat}

/-- The value `n` is let into the column: it repeats the row that has it, or there is none and it is not below
the minimum. -/
def ColumnAdmits (rows : List ρ) (key : ρ → Int) (repeats : ρ → Bool) (n : Nat) : Prop :=
  match rows.find? fun row => key row = asI64 n with
  | some row => repeats row = true
  | none => ∀ least, (rows.map key).min? = some least → asU64 least ≤ n

theorem columnAdmits_of_some {row : ρ} (h : (rows.find? fun row => key row = asI64 n) = some row) :
    ColumnAdmits rows key repeats n ↔ repeats row = true := by
  rw [ColumnAdmits, h]

theorem columnAdmits_of_none (h : (rows.find? fun row => key row = asI64 n) = none) :
    ColumnAdmits rows key repeats n ↔ ∀ least, (rows.map key).min? = some least → asU64 least ≤ n := by
  rw [ColumnAdmits, h]

theorem ColumnAdmits.before {row : ρ} {n' : Nat} (hn : n < 2 ^ 64) (hn' : n' < 2 ^ 64) (hrow : key row = asI64 n')
    (hadded : ∀ least, (rows.map key).min? = some least → asU64 least ≤ n')
    (h : ColumnAdmits (rows ++ [row]) key repeats n) : ColumnAdmits rows key repeats n := by
  unfold ColumnAdmits at h ⊢
  rw [find?_append] at h
  cases hfind : rows.find? fun row => key row = asI64 n with
  | some found => simpa [hfind] using h
  | none =>
    intro least hleast
    by_cases hsame : key row = asI64 n
    · -- the added row is the one with this value, and it was not below the minimum
      rw [← (asI64_inj hn' hn).mp (hrow.symm.trans hsame)]
      exact hadded least hleast
    · have hmin : ((rows ++ [row]).map key).min? = some (min least (asI64 n')) := by
        obtain ⟨hmem, hle⟩ := min?_eq_some_iff.mp hleast
        refine min?_eq_some_iff.mpr ⟨?_, fun value hvalue => ?_⟩
        · rw [map_append, map_singleton, hrow]
          rcases min_choice least (asI64 n') with heq | heq <;> rw [heq] <;> simp [hmem]
        · rw [map_append, map_singleton, hrow] at hvalue
          rcases mem_append.mp hvalue with hold | hnew
          · exact (min_le_left _ _).trans (hle value hold)
          · exact mem_singleton.mp hnew ▸ min_le_right _ _
      have hle : asU64 (min least (asI64 n')) ≤ n := by
        simp only [hfind, none_or, find?_cons, hsame, decide_false] at h
        exact h _ hmin
      rcases le_total least (asI64 n') with hlow | hlow
      · rwa [min_eq_left hlow] at hle
      · rw [min_eq_right hlow, asU64_asI64_of_lt hn'] at hle
        exact (hadded least hleast).trans hle

end

/-! ### What the checks accept -/

section

variable {t : Tables} {pubkey : String} {strict : Bool}

theorem exists_blockAccepted_iff {candidate : BlockCandidate} :
    (∃ verdict, BlockAccepted t pubkey candidate strict verdict) ↔
      (t.blockWatermarks pubkey).Admits candidate.slot ∧ ColumnAdmits (t.blocksOf pubkey) (·.slot)
        (fun row => isResign row.signingRoot candidate.signingRoot strict) candidate.slot := by
  constructor
  · rintro ⟨verdict, hfloor, hslot, hminimum⟩
    refine ⟨hfloor, ?_⟩
    cases verdict with
    | stage => exact (columnAdmits_of_none (rowAtSlot_none.mpr hslot)).mpr (hminimum rfl)
    | resign =>
      obtain ⟨row, hfound, heq⟩ := hslot
      exact (columnAdmits_of_some hfound).mpr heq
  · rintro ⟨hfloor, hcolumn⟩
    cases hrow : t.rowAtSlot pubkey (asI64 candidate.slot) with
    | none =>
      exact ⟨.stage, hfloor, rowAtSlot_none.mp hrow, fun _ => (columnAdmits_of_none hrow).mp hcolumn⟩
    | some row => exact ⟨.resign, hfloor, ⟨row, hrow, (columnAdmits_of_some hrow).mp hcolumn⟩, nofun⟩

theorem exists_attestationAccepted_iff {candidate : AttestationCandidate} :
    (∃ verdict, AttestationAccepted t pubkey candidate strict verdict) ↔
      (t.attestationWatermarks pubkey).Admits candidate ∧ (∀ row ∈ t.attestations, row.pubkey = pubkey →
          ¬ candidate.vote.Surrounds row.vote ∧ ¬ row.vote.Surrounds candidate.vote) ∧
        ColumnAdmits (t.attestationsOf pubkey) (·.targetEpoch)
          (fun row => isResign row.signingRoot candidate.signingRoot strict) candidate.targetEpoch := by
  constructor
  · rintro ⟨verdict, hfloor, hsurrounding, hsurrounded, htarget, hminimum⟩
    refine ⟨hfloor, fun row hrow hpk => ⟨hsurrounding row hrow hpk, hsurrounded row hrow hpk⟩, ?_⟩
    cases verdict with
    | stage => exact (columnAdmits_of_none (rowAtTarget_none.mpr htarget)).mpr (hminimum rfl)
    | duplicate =>
      obtain ⟨row, hfound, heq⟩ := htarget
      exact (columnAdmits_of_some hfound).mpr heq
  · rintro ⟨hfloor, hclear, hcolumn⟩
    have hsurrounding := fun row hrow hpk => (hclear row hrow hpk).1
    have hsurrounded := fun row hrow hpk => (hclear row hrow hpk).2
    cases hrow : t.rowAtTarget pubkey candidate.vote.target with
    | none =>
      exact ⟨.stage, hfloor, hsurrounding, hsurrounded, rowAtTarget_none.mp hrow,
        fun _ => (columnAdmits_of_none hrow).mp hcolumn⟩
    | some row =>
      exact ⟨.duplicate, hfloor, hsurrounding, hsurrounded, ⟨row, hrow, (columnAdmits_of_some hrow).mp hcolumn⟩, nofun⟩

end

/-! ### A row more -/

def ReservationKind.InU64 : ReservationKind → Prop
  | .block slot => slot < 2 ^ 64
  | .attestation source target => source < 2 ^ 64 ∧ target < 2 ^ 64

variable {reservation : CommittedReservation}

section

variable {db : SlashingDb} {t : Tables} {spec : ReserveSpec} {pubkey : String}

theorem Tables.blocksOf_append {row : BlockRow} (h : row.pubkey = pubkey) :
    Tables.blocksOf { t with blocks := t.blocks ++ [row] } pubkey = t.blocksOf pubkey ++ [row] := by
  simp [blocksOf, h]

theorem Tables.attestationsOf_append {row : AttestationRow} (h : row.pubkey = pubkey) :
    Tables.attestationsOf { t with attestations := t.attestations ++ [row] } pubkey =
      t.attestationsOf pubkey ++ [row] := by
  simp [attestationsOf, h]

section

variable {strict strict' : Bool}

theorem BlockAccepted.before {candidate added : BlockCandidate} {verdict : BlockVerdict} {row : BlockRow}
    (h : BlockAccepted { t with blocks := t.blocks ++ [row] } pubkey candidate strict verdict)
    (hadded : BlockAccepted t pubkey added strict' .stage) (hslot : candidate.slot < 2 ^ 64)
    (hslot' : added.slot < 2 ^ 64) (hpk : row.pubkey = pubkey) (hrow : row.slot = asI64 added.slot) :
    ∃ verdict, BlockAccepted t pubkey candidate strict verdict := by
  obtain ⟨hfloor, hcolumn⟩ := exists_blockAccepted_iff.mp ⟨verdict, h⟩
  rw [blocksOf_append hpk] at hcolumn
  exact exists_blockAccepted_iff.mpr ⟨hfloor, hcolumn.before hslot hslot' hrow (hadded.minimum rfl)⟩

theorem AttestationAccepted.before {candidate added : AttestationCandidate} {verdict : AttestationVerdict}
    {row : AttestationRow}
    (h : AttestationAccepted { t with attestations := t.attestations ++ [row] } pubkey candidate strict verdict)
    (hadded : AttestationAccepted t pubkey added strict' .stage) (htarget : candidate.targetEpoch < 2 ^ 64)
    (htarget' : added.targetEpoch < 2 ^ 64) (hpk : row.pubkey = pubkey)
    (hrow : row.targetEpoch = asI64 added.targetEpoch) :
    ∃ verdict, AttestationAccepted t pubkey candidate strict verdict := by
  obtain ⟨hfloor, hsurrounds, hcolumn⟩ := exists_attestationAccepted_iff.mp ⟨verdict, h⟩
  rw [attestationsOf_append hpk] at hcolumn
  exact exists_attestationAccepted_iff.mpr ⟨hfloor, fun row hrow => hsurrounds row (mem_append_left _ hrow),
    hcolumn.before htarget htarget' hrow (hadded.minimum rfl)⟩

theorem BlockAccepted.again {root : String} {slot : Nat} {row : BlockRow}
    (h : BlockAccepted t pubkey ⟨slot, some root⟩ strict .stage) (hpk : row.pubkey = pubkey)
    (hslot : row.slot = asI64 slot) (hroot : row.signingRoot = some root) :
    BlockAccepted { t with blocks := t.blocks ++ [row] } pubkey ⟨slot, some root⟩ strict .resign := by
  have hfree : t.rowAtSlot pubkey (asI64 slot) = none := rowAtSlot_none.mpr h.slot
  have hfound : rowAtSlot { t with blocks := t.blocks ++ [row] } pubkey (asI64 slot) = some row := by
    rw [rowAtSlot] at hfree ⊢
    rw [blocksOf_append hpk, find?_append, hfree]
    simp [hslot]
  exact ⟨h.floor, ⟨row, hfound, by simp [hroot, isResign]⟩, by simp⟩

theorem AttestationAccepted.again {root : String} {source target : Nat} {row : AttestationRow}
    (h : AttestationAccepted t pubkey ⟨source, target, some root⟩ strict .stage) (hpk : row.pubkey = pubkey)
    (hsource : row.sourceEpoch = asI64 source) (htarget : row.targetEpoch = asI64 target)
    (hroot : row.signingRoot = some root) :
    AttestationAccepted { t with attestations := t.attestations ++ [row] } pubkey ⟨source, target, some root⟩ strict
      .duplicate := by
  have hfree : t.rowAtTarget pubkey (asI64 target) = none := rowAtTarget_none.mpr h.target
  have hfound : rowAtTarget { t with attestations := t.attestations ++ [row] } pubkey (asI64 target) = some row := by
    rw [rowAtTarget] at hfree ⊢
    rw [attestationsOf_append hpk, find?_append, hfree]
    simp [htarget]
  -- a vote does not surround itself
  have hself : ¬ row.vote.Surrounds row.vote := by simp [Vote.Surrounds]
  have hvote : row.vote = (⟨source, target, some root⟩ : AttestationCandidate).vote := by
    simp [AttestationRow.vote, AttestationCandidate.vote, hsource, htarget]
  refine ⟨h.floor, forall_mem_append.mpr ⟨h.notSurrounding, ?_⟩, forall_mem_append.mpr ⟨h.notSurrounded, ?_⟩,
    ⟨row, hfound, by simp [hroot, isResign]⟩, by simp⟩
  · exact forall_mem_singleton.mpr fun _ => hvote ▸ hself
  · exact forall_mem_singleton.mpr fun _ => hvote ▸ hself

end

theorem SpecAccepted.again {root : String} (hroot : spec.signingRootHex = some root)
    (h : SpecAccepted db t spec reservation) :
    SpecAccepted db (t.afterReserve spec reservation) spec (spec.reservation false) := by
  have hfields := h.reservation_eq
  unfold afterReserve
  split
  next hinserted =>
    unfold withReserved
    cases h with
    | @block slot verdict hkind hacc =>
      cases verdict with
      | resign => cases hinserted
      | stage =>
        rw [hroot] at hacc
        simp only [hkind]
        exact @SpecAccepted.block db _ spec slot .resign hkind (hroot ▸ hacc.again rfl rfl hroot)
    | @attestation source target verdict hkind hacc =>
      cases verdict with
      | duplicate => cases hinserted
      | stage =>
        rw [hroot] at hacc
        simp only [hkind]
        exact @SpecAccepted.attestation db _ spec source target .duplicate hkind (hroot ▸ hacc.again rfl rfl rfl hroot)
  next hrepeat =>
    rw [Bool.eq_false_iff.mpr hrepeat] at hfields
    exact hfields ▸ h

theorem checkSpecInTxn_withReserved {added : ReserveSpec} (h : added.pubkey ≠ spec.pubkey) :
    checkSpecInTxn db (t.withReserved added) spec = checkSpecInTxn db t spec := by
  have hsame : Tables.SameRows spec.pubkey t (t.withReserved added) :=
    sameRows_afterReserve h (added.reservation true)
  have hwm : (t.withReserved added).watermarks = t.watermarks := by
    unfold withReserved
    split <;> rfl
  exact checkSpecInTxn_congr hsame.blocks hsame.attestations hwm

/-- **Accepted rows take no grounds away**: a message that the rules accept after another was accepted, they
accepted before. -/
theorem SpecAccepted.before {added : ReserveSpec} {accepted : CommittedReservation} (hkind : spec.kind.InU64)
    (hkind' : added.kind.InU64) (hadded : SpecAccepted db t added reservation)
    (h : SpecAccepted db (t.afterReserve added reservation) spec accepted) :
    ∃ accepted, SpecAccepted db t spec accepted := by
  unfold afterReserve at h
  cases hinserted : reservation.inserted with
  | false =>
    rw [hinserted] at h
    exact ⟨accepted, h⟩
  | true =>
  rw [hinserted, if_pos rfl] at h
  by_cases hpk : added.pubkey = spec.pubkey
  case neg =>
    rw [← checkSpecInTxn_ok_iff, checkSpecInTxn_withReserved hpk] at h
    exact ⟨accepted, checkSpecInTxn_ok_iff.mp h⟩
  unfold withReserved at h
  -- a row of one table is nothing to a check of the other
  cases hadded with
  | @block slot' verdict' hadd hacc' =>
    rw [hadd] at h hkind'
    cases h with
    | @block slot verdict hspec hacc =>
      rw [hspec] at hkind
      cases verdict' with
      | resign => cases hinserted
      | stage =>
        rw [hpk] at hacc'
        obtain ⟨_, hbefore⟩ := hacc.before hacc' hkind hkind' hpk rfl
        exact ⟨_, .block hspec hbefore⟩
    | attestation hspec hacc => exact ⟨_, .attestation hspec { hacc with }⟩
  | @attestation source' target' verdict' hadd hacc' =>
    rw [hadd] at h hkind'
    cases h with
    | block hspec hacc => exact ⟨_, .block hspec { hacc with }⟩
    | @attestation source target verdict hspec hacc =>
      rw [hspec] at hkind
      cases verdict' with
      | duplicate => cases hinserted
      | stage =>
        rw [hpk] at hacc'
        obtain ⟨_, hbefore⟩ := hacc.before hacc' hkind.2 hkind'.2 hpk rfl
        exact ⟨_, .attestation hspec hbefore⟩

end

/-! ### Along a batch -/

variable {batch : List QueuedReserve}

section

variable {db : SlashingDb} {t t' : Tables} {items : List QueuedReserve} {outcomes : List (Option Reply)}
  {spec : ReserveSpec} {e : SlashingError}

theorem accepted_of_reserve (h : reserve db t spec = (.ok reservation, t')) :
    SpecAccepted db t spec reservation ∧ t' = t.afterReserve spec reservation := by
  cases hcheck : checkSpecInTxn db t spec with
  | error e => cases (mk.inj ((reserve_of_check_error hcheck).symm.trans h)).1
  | ok other =>
  cases hgvr : gvrMismatchOnConn t spec with
  | error e => cases (mk.inj ((reserve_of_gvr_error hcheck hgvr).symm.trans h)).1
  | ok =>
    obtain ⟨hreply, rfl⟩ := mk.inj ((reserve_of_accepted hcheck hgvr).symm.trans h)
    cases hreply
    exact ⟨checkSpecInTxn_ok_iff.mp hcheck, rfl⟩

theorem gvrMismatchOnConn_error (h : gvrMismatchOnConn t spec = .error e) : e.isEip3076 = false := by
  unfold gvrMismatchOnConn at h
  cases hpin : t.metadataGvr with
  | none => simp [hpin] at h
  | some hex =>
    rw [hpin] at h
    dsimp only at h
    split at h
    · cases h
    · cases hparse : parseGvrHex hex with
      | error e' =>
        obtain ⟨message, rfl⟩ := parseGvrHex_error hparse
        obtain rfl : SlashingError.invalidInterchangeFormat message = e := by
          simpa [hparse, bind, Except.bind] using h
        rfl
      | ok root =>
        obtain rfl : SlashingError.genesisRootMismatch root spec.gvr = e := by
          simpa [hparse, bind, Except.bind] using h
        rfl

theorem checkSpecInTxn_of_refused (h : reserve db t spec = (.error e, t)) (he : e.isEip3076 = true) :
    checkSpecInTxn db t spec = .error e := by
  cases hcheck : checkSpecInTxn db t spec with
  | error e' => rw [(mk.inj ((reserve_of_check_error hcheck).symm.trans h)).1]
  | ok other =>
  cases hgvr : gvrMismatchOnConn t spec with
  | ok => cases (mk.inj ((reserve_of_accepted hcheck hgvr).symm.trans h)).1
  | error e' =>
    cases (mk.inj ((reserve_of_gvr_error hcheck hgvr).symm.trans h)).1
    rw [gvrMismatchOnConn_error hgvr] at he
    cases he

section

variable (h : Committed db t items outcomes t') (hitems : ∀ item ∈ items, item.spec.kind.InU64)

include h hitems

theorem Committed.refused (hkind : spec.kind.InU64) (hcheck : checkSpecInTxn db t spec = .error e) :
    ∃ e', checkSpecInTxn db t' spec = .error e' := by
  induction h generalizing e with
  | nil => exact ⟨e, hcheck⟩
  | skip _ _ ih | reject _ _ ih => exact ih (forall_mem_cons.mp hitems).2 hcheck
  | @accept t t₁ t' item items outcomes reservation _ hitem _ ih =>
    obtain ⟨hfirst, hitems⟩ := forall_mem_cons.mp hitems
    obtain ⟨hadded, rfl⟩ := accepted_of_reserve hitem
    cases hnext : checkSpecInTxn db (t.afterReserve item.spec reservation) spec with
    | error e' => exact ih hitems hnext
    | ok accepted =>
      obtain ⟨_, hok⟩ := hadded.before hkind hfirst (checkSpecInTxn_ok_iff.mp hnext)
      cases (checkSpecInTxn_ok_iff.mpr hok).symm.trans hcheck

theorem Committed.refused_after
    (he : e.isEip3076 = true) {i : Nat} {item : QueuedReserve} (hitem : items[i]? = some item)
    (hreply : outcomes[i]? = some (some (.error e))) : ∃ e', checkSpecInTxn db t' item.spec = .error e' := by
  induction h generalizing i with
  | nil => cases hitem
  | skip _ _ ih | accept _ _ _ ih =>
    cases i with
    | zero => simp at hreply
    | succ i => exact ih (forall_mem_cons.mp hitems).2 hitem hreply
  | reject hrefused hrest ih =>
    obtain ⟨hfirst, hitems⟩ := forall_mem_cons.mp hitems
    cases i with
    | zero =>
      obtain rfl := some.inj hitem
      obtain rfl : _ = e := by simpa using hreply
      exact hrest.refused hitems hfirst (checkSpecInTxn_of_refused hrefused he)
    | succ i => exact ih hitems hitem hreply

end

theorem commitMembers_rejected (db : SlashingDb) (base : Tables) {t : Tables} {items : List QueuedReserve} {i : Nat}
    (h : (commitMembers db ⟨base, some t⟩ none items).outcomes[i]? = some (some (.error e))) :
    ∃ item view, items[i]? = some item ∧ reserve db view item.spec = (.error e, view) ∧
      Committed db t (items.take i) ((commitMembers db ⟨base, some t⟩ none items).outcomes.take i) view := by
  induction items generalizing t i with
  | nil => simp [commitMembers] at h
  | cons item items ih =>
    rw [commitMembers] at h ⊢
    have hstep := commitMember_step db base t item
    generalize commitMember db ⟨base, some t⟩ item = r at hstep h ⊢
    cases i with
    | zero =>
      obtain houtcome : r.outcome = some (.error e) := by simpa [LoopResult.push] using h
      cases hstep with
      | skipped | failed => cases houtcome
      | accepted => cases some.inj houtcome
      | rejected hrefused =>
        cases houtcome
        exact ⟨item, t, rfl, hrefused, .nil t⟩
    | succ i =>
      have hrest : (commitMembers db r.conn r.persistErr items).outcomes[i]? = some (some (.error e)) := by
        simpa [LoopResult.push] using h
      cases hstep with
      | skipped hcancelled =>
        obtain ⟨later, view, hlater, hrefused, hview⟩ := ih hrest
        exact ⟨later, view, hlater, hrefused, .skip hcancelled hview⟩
      | rejected hfirst =>
        obtain ⟨later, view, hlater, hrefused, hview⟩ := ih hrest
        exact ⟨later, view, hlater, hrefused, .reject hfirst hview⟩
      | accepted hacc hfirst =>
        obtain ⟨later, view, hlater, hrefused, hview⟩ := ih hrest
        exact ⟨later, view, hlater, hrefused, .accept hacc hfirst hview⟩
      | failed =>
        -- after a persistence error nobody is checked
        rw [commitMembers_skip] at hrest
        simp [getElem?_replicate] at hrest

variable {persistErr : Option SlashingError}

theorem replyFor_rejected {outcome : Option Reply} (he : e.isEip3076 = true)
    (h : replyFor outcome persistErr = some (.error e)) : outcome = some (.error e) := by
  -- a persistence error is passed on as a failed commit, which is no refusal by a rule
  have hfailed : ∀ err, commitFailedErr err ≠ e := fun err heq => by
    rw [← heq] at he
    cases err <;> cases he
  rcases outcome with _ | e' | reservation <;> rcases persistErr with _ | err
  · cases h
  · exact absurd (error.inj (some.inj h)) (hfailed err)
  · exact h
  · exact h
  · exact h
  · exact absurd (error.inj (some.inj h)) (hfailed err)

theorem dispatchOutcomes_rejected (he : e.isEip3076 = true) {i : Nat}
    (h : (dispatchOutcomes batch outcomes persistErr)[i]? = some (some (.error e))) :
    outcomes[i]? = some (some (.error e)) := by
  unfold dispatchOutcomes at h
  rw [getElem?_map] at h
  obtain ⟨⟨item, outcome⟩, hzip, hreply⟩ := map_eq_some_iff.mp h
  obtain ⟨-, houtcome⟩ := getElem?_zip_eq_some.mp hzip
  rw [replyFor_rejected he hreply, getElem?_append] at houtcome
  split at houtcome
  · exact houtcome
  · simp [getElem?_replicate] at houtcome

theorem commitBody_outcomes {commitFault : Option Fault} {c c' : Conn Tables}
    (h : commitBody db batch commitFault c = (.ok (outcomes, persistErr), c')) :
    outcomes = (commitMembers db c none batch).outcomes := by
  unfold commitBody at h
  dsimp only at h
  split at h
  · split at h <;> exact (congrArg fst (ok.inj (mk.inj h).1)).symm
  · split at h
    · exact (congrArg fst (ok.inj (mk.inj h).1)).symm
    · cases (mk.inj h).1

theorem commitBatch_rejected {faults : BatchFaults} (he : e.isEip3076 = true) {i : Nat}
    (h : (commitBatch db faults batch ⟨t, none⟩).replies[i]? = some (some (.error e))) :
    (commitMembers db ⟨t, some t⟩ none batch).outcomes[i]? = some (some (.error e)) := by
  unfold commitBatch at h
  split at h
  · simp at h
  rcases Conn.withImmediateTxn_cases SlashingError.databaseError (c := ⟨t, none⟩) rfl faults.begin
    (commitBody db batch faults.commit) with
    ⟨message, hrun⟩ | ⟨⟨outcomes, persistErr⟩, c, hbody, hrun⟩ | ⟨e', c, -, hrun⟩
  · rw [hrun] at h
    cases dispatchOutcomes_rejected he h
  · rw [hrun] at h
    rw [← commitBody_outcomes hbody]
    exact dispatchOutcomes_rejected he h
  · rw [hrun] at h
    cases dispatchOutcomes_rejected he h

end

/-- The members before the `i`-th whose outcome in the leader's loop was `Ok`, with a row of their own. -/
def acceptedBefore (db : SlashingDb) (t : Tables) (batch : List QueuedReserve) (i : Nat) : List ReserveSpec :=
  insertedSpecs (batch.take i) ((commitMembers db ⟨t, some t⟩ none batch).outcomes.take i)

theorem checkSpecInTxn_foldl_withReserved {db : SlashingDb} {spec : ReserveSpec} {added : List ReserveSpec}
    (h : ∀ other ∈ added, other.pubkey ≠ spec.pubkey) (t : Tables) :
    checkSpecInTxn db (added.foldl Tables.withReserved t) spec = checkSpecInTxn db t spec := by
  induction added generalizing t with
  | nil => rfl
  | cons other added ih =>
    obtain ⟨hfirst, hrest⟩ := forall_mem_cons.mp h
    rw [foldl_cons, ih hrest, checkSpecInTxn_withReserved hfirst]

/-- **What a refusal in a batch stands on.** A member that is told of a slashable message or of a watermark is in
conflict with the committed tables and the rows of the members accepted before it in the batch. When the batch commits,
it is in conflict with what is committed. When the batch does not, nothing of it is committed, and the member is in
conflict with what is committed at least if none of those rows was of its own pubkey. -/
theorem group_commit_rejections (db : SlashingDb) (faults : BatchFaults) (batch : List QueuedReserve) (t : Tables)
    (hbatch : ∀ item ∈ batch, item.spec.kind.InU64) {i : Nat} {item : QueuedReserve} {e : SlashingError}
    (hitem : batch[i]? = some item) (he : e.isEip3076 = true)
    (hreply : (commitBatch db faults batch ⟨t, none⟩).replies[i]? = some (some (.error e))) :
    checkSpecInTxn db ((acceptedBefore db t batch i).foldl Tables.withReserved t) item.spec = .error e ∧
      ((commitBatch db faults batch ⟨t, none⟩).persistErr = none →
        ∃ e', checkSpecInTxn db (commitBatch db faults batch ⟨t, none⟩).conn.committed item.spec = .error e') ∧
      ((commitBatch db faults batch ⟨t, none⟩).persistErr ≠ none →
        (commitBatch db faults batch ⟨t, none⟩).conn.committed = t ∧
          ((∀ spec ∈ acceptedBefore db t batch i, spec.pubkey ≠ item.spec.pubkey) →
            checkSpecInTxn db t item.spec = .error e)) := by
  obtain ⟨item', view, hitem', hrefused, hview⟩ := commitMembers_rejected db t (commitBatch_rejected he hreply)
  cases hitem.symm.trans hitem'
  have hcheck := checkSpecInTxn_of_refused hrefused he
  rw [hview.tables_eq] at hcheck
  have hout := commitBatch_outcome db faults batch t
  generalize commitBatch db faults batch ⟨t, none⟩ = result at hout hreply ⊢
  refine ⟨hcheck, fun hnone => ?_, fun hsome => ?_⟩
  · cases hout with
    | committed hcommitted => exact hcommitted.refused_after hbatch he hitem hreply
    | failed => cases hnone
  · cases hout with
    | committed => exact absurd rfl hsome
    | failed =>
      refine ⟨rfl, fun hothers => ?_⟩
      exact (checkSpecInTxn_foldl_withReserved hothers t).symm.trans hcheck

def twoBlocks : List QueuedReserve :=
  [⟨.of "0xaa" (.block 5) (some "0x01") zeroRoot, false, false, none, none, none⟩,
    ⟨.of "0xaa" (.block 5) (some "0x02") zeroRoot, false, false, none, none, none⟩]

/-- The commit of both fails. The second is told of a double proposal, and the block it stands against is rolled
back: on what is committed it would be accepted. -/
theorem refused_by_rolled_back_sibling :
    (commitBatch ⟨true, 0⟩ ⟨none, some ⟨"disk I/O error", false⟩⟩ twoBlocks ⟨Tables.empty, none⟩).replies =
        [some (.error (.reserveCommitFailed "disk I/O error")),
          some (.error (.slashableBlock (.doubleBlockProposal 5)))] ∧
      (commitBatch ⟨true, 0⟩ ⟨none, some ⟨"disk I/O error", false⟩⟩ twoBlocks
        ⟨Tables.empty, none⟩).conn.committed.blocks = [] ∧ checkSpecInTxn ⟨true, 0⟩
          (commitBatch ⟨true, 0⟩ ⟨none, some ⟨"disk I/O error", false⟩⟩ twoBlocks ⟨Tables.empty, none⟩).conn.committed
          (.of "0xaa" (.block 5) (some "0x02") zeroRoot) =
        .ok ⟨"0xaa", .block 5, some "0x02", true⟩ := by
  decide +kernel

/-- With the commit going through, the second block is refused for good. -/
theorem group_commit_rejections_twoBlocks :
    ∃ e', checkSpecInTxn ⟨true, 0⟩ (commitBatch ⟨true, 0⟩ ⟨none, none⟩ twoBlocks ⟨Tables.empty, none⟩).conn.committed
      (.of "0xaa" (.block 5) (some "0x02") zeroRoot) = .error e' := by
  obtain ⟨-, hcommitted, -⟩ := group_commit_rejections ⟨true, 0⟩ ⟨none, none⟩ twoBlocks empty
    (forall_mem_cons.mpr ⟨show 5 < 2 ^ 64 by decide,
      forall_mem_cons.mpr ⟨show 5 < 2 ^ 64 by decide, forall_mem_nil _⟩⟩)
    (i := 1) (e := .slashableBlock (.doubleBlockProposal 5)) rfl rfl (by decide +kernel)
  exact hcommitted (by decide +kernel)

end Rvc.Slashing
