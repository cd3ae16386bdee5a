import Rvc.Slashing.Agreement
import Rvc.Slashing.Prune

/-!
# Operations on the database

Everything that writes the tables, as one type of operations, and runs of them. A call in which a statement
fails rolls back and leaves the tables as they are, so a run with such calls is the run without them; the
operations here are those in which no statement fails. `Operation.run_effect` says once what each can do to the
tables, and what holds along runs is proved from it.
-/

namespace Rvc.Slashing

open Rvc.Lib Rvc.EthTypes Rvc.Observability List

inductive Operation where
  | reserve (pubkeyHex : String) (kind : ReservationKind) (signingRootHex : Option String) (gvr : Root)
  | stage (pubkeyHex : String) (kind : ReservationKind) (signingRootHex : Option String) (gvr : Root)
  | reconcile (reservation : CommittedReservation)
  | importFile (file : InterchangeFormat) (gvr : Root)
  | prune
  | setBlockWatermark (pubkey : String) (slot : UInt64)
  | setAttestationWatermark (pubkey : String) (sourceEpoch targetEpoch : UInt64)

/-- One transaction around `result`: the new tables, or after an error the old ones. -/
def inTxn (t : Tables) (result : Except SlashingError Tables) : Except SlashingError Unit × Tables :=
  match result with
  | .ok t' => (.ok (), t')
  | .error e => (.error e, t)

namespace Operation

def run (db : SlashingDb) (t : Tables) : Operation → Except SlashingError Unit × Tables
  | .reserve pubkeyHex kind signingRootHex gvr =>
      let (reply, t') := reserveMessage db t pubkeyHex kind signingRootHex gvr
      (reply.map fun _ => (), t')
  | .stage pubkeyHex kind signingRootHex gvr => stageMessage db t pubkeyHex kind signingRootHex gvr
  | .reconcile reservation =>
      (.ok (), (reconcileUnsigned ⟨none, none, none⟩ ⟨t, none⟩ reservation).2.committed)
  | .importFile file gvr =>
      let (result, c) := importInterchange .none ⟨t, none⟩ file gvr
      (result, c.committed)
  | .prune => inTxn t ((pruneBelowWatermarks t).map (·.1))
  | .setBlockWatermark pubkey slot => inTxn t (Slashing.setBlockWatermark t pubkey slot.toNat)
  | .setAttestationWatermark pubkey sourceEpoch targetEpoch =>
      let (result, c) := setAttestationWatermarkTxn ⟨none, none, none, none⟩ ⟨t, none⟩ pubkey sourceEpoch.toNat
        targetEpoch.toNat
      (result, c.committed)

def runAll (db : SlashingDb) (t : Tables) (operations : List Operation) : Tables :=
  operations.foldl (fun t operation => (operation.run db t).2) t

/-- What a call can do to the tables, and under which circumstances. -/
inductive Effect (db : SlashingDb) (t : Tables) : Operation → Tables → Prop
  | unchanged {operation : Operation} : Effect db t operation t
  | reserved {pubkeyHex : String} {kind : ReservationKind} {signingRootHex : Option String} {gvr : Root}
      {reservation : CommittedReservation}
      (h : SpecAccepted db t (.of pubkeyHex kind signingRootHex gvr) reservation) :
      Effect db t (.reserve pubkeyHex kind signingRootHex gvr)
        (t.afterReserve (.of pubkeyHex kind signingRootHex gvr) reservation)
  | staged {pubkeyHex : String} {kind : ReservationKind} {signingRootHex : Option String} {gvr : Root}
      {reservation : CommittedReservation}
      (h : SpecAccepted db t (.of pubkeyHex kind signingRootHex gvr) reservation) :
      Effect db t (.stage pubkeyHex kind signingRootHex gvr)
        (t.afterReserve (.of pubkeyHex kind signingRootHex gvr) reservation)
  | reconciled {reservation : CommittedReservation} :
      Effect db t (.reconcile reservation) (t.without reservation.identity)
  | imported {file : InterchangeFormat} {gvr : Root} {parsed : List ParsedValidator}
      (h : parseInterchange file = .ok parsed) :
      Effect db t (.importFile file gvr) (applyAll (importStatements (rootToHex gvr) parsed) t)
  | pruned {t' : Tables} {stats : PruneStats} (h : pruneBelowWatermarks t = .ok (t', stats)) : Effect db t .prune t'
  | blockRaised {pubkey : String} {slot : UInt64} {t' : Tables}
      (h : Slashing.setBlockWatermark t pubkey slot.toNat = .ok t') :
      Effect db t (.setBlockWatermark pubkey slot) t'
  | attestationRaised {pubkey : String} {sourceEpoch targetEpoch : UInt64} {t' : Tables}
      (h : Slashing.setAttestationWatermark t pubkey sourceEpoch.toNat targetEpoch.toNat = .ok t') :
      Effect db t (.setAttestationWatermark pubkey sourceEpoch targetEpoch) t'

end Operation

/-! ### What each call does -/

section

variable {db : SlashingDb} {t : Tables} {pubkeyHex : String} {kind : ReservationKind}
  {signingRootHex : Option String} {gvr : Root}

theorem reserveMessage_cases : (∃ e, reserveMessage db t pubkeyHex kind signingRootHex gvr = (.error e, t)) ∨
      ∃ reservation, SpecAccepted db t (.of pubkeyHex kind signingRootHex gvr) reservation ∧
        reserveMessage db t pubkeyHex kind signingRootHex gvr =
          (.ok reservation, t.afterReserve (.of pubkeyHex kind signingRootHex gvr) reservation) := by
  cases hgvr : checkGvrBeforeLock t gvr with
  | error e => exact .inl ⟨e, reserveMessage_error hgvr⟩
  | ok =>
    rw [reserveMessage_eq hgvr]
    exact reserve_cases db t _

theorem stageMessage_cases : (∃ e, stageMessage db t pubkeyHex kind signingRootHex gvr = (.error e, t)) ∨
      ∃ reservation, SpecAccepted db t (.of pubkeyHex kind signingRootHex gvr) reservation ∧
        stageMessage db t pubkeyHex kind signingRootHex gvr =
          (.ok (), t.afterReserve (.of pubkeyHex kind signingRootHex gvr) reservation) := by
  cases hgvr : checkGvrBeforeLock t gvr with
  | error e => exact .inl ⟨e, stageMessage_error hgvr⟩
  | ok =>
    rw [stageMessage_eq hgvr]
    rcases checkSpecInTxn_cases db t (.of pubkeyHex kind signingRootHex gvr) with
      ⟨e, hcheck, -⟩ | ⟨reservation, hcheck, hacc⟩
    · exact .inl ⟨e, by rw [hcheck]⟩
    · exact .inr ⟨reservation, hacc, by rw [hcheck]⟩

end

theorem inTxn_cases (t : Tables) (result : Except SlashingError Tables) :
    (∃ e, result = .error e ∧ inTxn t result = (.error e, t)) ∨
      ∃ t', result = .ok t' ∧ inTxn t result = (.ok (), t') := by
  cases result with
  | error e => exact .inl ⟨e, rfl, rfl⟩
  | ok t' => exact .inr ⟨t', rfl, rfl⟩

namespace Operation

/-- **What a call does to the tables.** -/
theorem run_effect (db : SlashingDb) (t : Tables) (operation : Operation) :
    Effect db t operation (operation.run db t).2 := by
  cases operation with
  | reserve pubkeyHex kind signingRootHex gvr =>
    rcases @reserveMessage_cases db t pubkeyHex kind signingRootHex gvr with ⟨e, heq⟩ | ⟨reservation, hacc, heq⟩
    · simp only [run, heq]
      exact .unchanged
    · simp only [run, heq]
      exact .reserved hacc
  | stage pubkeyHex kind signingRootHex gvr =>
    rcases @stageMessage_cases db t pubkeyHex kind signingRootHex gvr with ⟨e, heq⟩ | ⟨reservation, hacc, heq⟩
    · simp only [run, heq]
      exact .unchanged
    · simp only [run, heq]
      exact .staged hacc
  | reconcile reservation =>
    have hspec := reconcileUnsigned_spec ⟨none, none, none⟩ t reservation
    show Effect db t _ (reconcileUnsigned _ _ _).2.committed
    generalize reconcileUnsigned ⟨none, none, none⟩ ⟨t, none⟩ reservation = result at hspec ⊢
    cases hspec with
    | deleted => exact .reconciled
    | kept => exact .unchanged
  | importFile file gvr =>
    rcases importInterchange_cases .none (c := ⟨t, none⟩) rfl file gvr with ⟨e, heq⟩ | ⟨parsed, hparse, heq⟩
    · simp only [run, heq]
      exact .unchanged
    · simp only [run, heq]
      exact .imported hparse
  | prune =>
    rcases inTxn_cases t ((pruneBelowWatermarks t).map (·.1)) with ⟨e, -, heq⟩ | ⟨t', hok, heq⟩
    · simp only [run, heq]
      exact .unchanged
    · simp only [run, heq]
      cases hprune : pruneBelowWatermarks t with
      | error e => simp [hprune, Except.map] at hok
      | ok pruned =>
        obtain rfl : pruned.1 = t' := by simpa [hprune, Except.map] using hok
        exact .pruned hprune
  | setBlockWatermark pubkey slot =>
    rcases inTxn_cases t (Slashing.setBlockWatermark t pubkey slot.toNat) with ⟨e, -, heq⟩ | ⟨t', hok, heq⟩
    · simp only [run, heq]
      exact .unchanged
    · simp only [run, heq]
      exact .blockRaised hok
  | setAttestationWatermark pubkey sourceEpoch targetEpoch =>
    rcases setAttestationWatermarkTxn_cases ⟨none, none, none, none⟩ t pubkey sourceEpoch.toNat targetEpoch.toNat with
      ⟨e, heq⟩ | ⟨t', hok, heq⟩
    · simp only [run, heq]
      exact .unchanged
    · simp only [run, heq]
      exact .attestationRaised hok

theorem runAll_invariant {db : SlashingDb} {P : Tables → Prop} {operations : List Operation}
    (h : ∀ operation ∈ operations, ∀ t, P t → P (operation.run db t).2) {t : Tables} (ht : P t) :
    P (runAll db t operations) := by
  induction operations generalizing t with
  | nil => exact ht
  | cons operation rest ih =>
    exact ih (fun op hop => h op (mem_cons_of_mem _ hop)) (h operation mem_cons_self t ht)

/-! ### One row for each slot and target -/

/-- **One row for each slot and target**: whatever calls a fresh database has seen, in whatever order and with whatever
values, it holds at most one block for a validator and a slot, and at most one vote for a validator and a target. -/
theorem one_row_per_key (db : SlashingDb) (pinned : Option String) (operations : List Operation) :
    ((runAll db { Tables.empty with metadataGvr := pinned } operations).blocks.map BlockRow.key).Nodup ∧
      ((runAll db { Tables.empty with metadataGvr := pinned } operations).attestations.map
        AttestationRow.key).Nodup := by
  refine runAll_invariant (P := fun t => (t.blocks.map BlockRow.key).Nodup ∧
    (t.attestations.map AttestationRow.key).Nodup) (fun operation _ t ht => ?_) ⟨nodup_nil, nodup_nil⟩
  have hextends : ∀ {t' : Tables}, t.Extends t' → (t'.blocks.map BlockRow.key).Nodup ∧
      (t'.attestations.map AttestationRow.key).Nodup :=
    fun hext => ⟨hext.blocks.nodup ht.1, hext.attestations.nodup ht.2⟩
  have heffect := operation.run_effect db t
  generalize (operation.run db t).2 = t' at heffect ⊢
  cases heffect with
  | unchanged => exact ht
  | reserved hacc | staged hacc => exact hextends hacc.extends
  | imported => exact hextends (applyAll_importStatements_extends _ _ t)
  | reconciled => exact ⟨ht.1.sublist (filter_sublist.map _), ht.2.sublist (filter_sublist.map _)⟩
  | pruned hprune =>
    obtain ⟨-, -, hattestations, hblocks⟩ := prune_eq hprune
    rw [hattestations, hblocks]
    exact ⟨ht.1.sublist (filter_sublist.map _), ht.2.sublist (filter_sublist.map _)⟩
  | blockRaised hok =>
    obtain ⟨rfl, -⟩ := raiseWatermark_ok hok
    exact ht
  | attestationRaised hok =>
    obtain ⟨raised, hsource, htarget⟩ := bind_eq_ok.mp hok
    obtain ⟨rfl, -⟩ := raiseWatermark_ok hsource
    obtain ⟨rfl, -⟩ := raiseWatermark_ok htarget
    exact ht

end Operation

end Rvc.Slashing
