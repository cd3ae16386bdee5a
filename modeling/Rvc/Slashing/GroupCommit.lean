import Rvc.Slashing.Stage

/-!
# Group commit

`commit_batch` of `group_commit.rs`: the leader checks and inserts every member of a batch in one
transaction, commits or rolls back, and then answers the members. The model keeps every exit: a member
whose waiter is gone, a rejected one, a persistence error at any statement (which the engine may have
turned into a rollback of its own), a failing `BEGIN` or `COMMIT`, and a `ROLLBACK` that finds no
transaction.

`Committed` is what the loop does to the tables when nothing fails. It is the hinge of both results:
`group_commit_refines_sequential` (batches are the reserves one at a time) and `group_commit_atomic`
(all or nothing, and one answer each).
-/

namespace Rvc.Slashing

open Rvc.Lib Rvc.EthTypes List Conn Prod Tables ReserveSpec

/-! ### The leader's loop -/

abbrev Reply := Except SlashingError CommittedReservation

/-- A `QueuedReserve`, with what the loop meets when it comes to it: the two reads of its `cancelled`
flag, and the statements that fail. -/
structure QueuedReserve where
  spec : ReserveSpec
  cancelledAtLoad : Bool
  cancelledAtClaim : Bool
  checkFault : Option Fault
  gvrFault : Option Fault
  insertFault : Option Fault

def QueuedReserve.Cancelled (item : QueuedReserve) : Prop :=
  item.cancelledAtLoad = true ∨ item.cancelledAtClaim = true

instance (item : QueuedReserve) : Decidable item.Cancelled := inferInstanceAs (Decidable (_ ∨ _))

/-- One turn of the loop: what is pushed onto `outcomes`, what `persist_err` becomes, the connection. -/
structure MemberResult where
  outcome : Option Reply
  persistErr : Option SlashingError
  conn : Conn Tables

/-- An error while checking is the member's own, or it fails the batch. -/
def MemberResult.ofError (e : SlashingError) (c : Conn Tables) : MemberResult :=
  if e.isGroupMemberRejection then ⟨some (.error e), none, c⟩ else ⟨none, some e, c⟩

def commitMember (db : SlashingDb) (c : Conn Tables) (item : QueuedReserve) : MemberResult :=
  if item.cancelledAtLoad then
    ⟨none, none, c⟩
  else
    match c.query .databaseError item.checkFault fun t => checkSpecInTxn db t item.spec with
    | (.error e, c) => .ofError e c
    | (.ok reservation, c) =>
        if item.cancelledAtClaim then
          ⟨none, none, c⟩
        else
          match c.query .databaseError item.gvrFault fun t => gvrMismatchOnConn t item.spec with
          | (.error e, c) => .ofError e c
          | (.ok (), c) =>
              -- a re-sign runs no statement, so none can fail
              match c.execute .reserveCommitFailed (if reservation.inserted then item.insertFault else none)
                  fun t => insertSpec t item.spec reservation with
              | (.error e, c) => ⟨none, some e, c⟩
              | (.ok (), c) => ⟨some (.ok reservation), none, c⟩

structure LoopResult where
  outcomes : List (Option Reply)
  persistErr : Option SlashingError
  conn : Conn Tables

def LoopResult.push (outcome : Option Reply) (r : LoopResult) : LoopResult :=
  { r with outcomes := outcome :: r.outcomes }

/-- `for item in &batch`; once `persist_err` is set the rest is skipped. -/
def commitMembers (db : SlashingDb) : Conn Tables → Option SlashingError → List QueuedReserve → LoopResult
  | c, persistErr, [] => ⟨[], persistErr, c⟩
  | c, some e, _ :: rest => (commitMembers db c (some e) rest).push none
  | c, none, item :: rest =>
      (commitMembers db (commitMember db c item).conn (commitMember db c item).persistErr rest).push
        (commitMember db c item).outcome

def isAccepted : Option Reply → Bool
  | some (.ok _) => true
  | _ => false

def commitBody (db : SlashingDb) (batch : List QueuedReserve) (commitFault : Option Fault)
    (c : Conn Tables) : Except SlashingError (List (Option Reply) × Option SlashingError) × Conn Tables :=
  match commitMembers db c none batch with
  | ⟨outcomes, persistErr, c⟩ =>
      if persistErr.isNone && outcomes.any isAccepted then
        match c.commit commitFault with
        | (.ok (), c) => (.ok (outcomes, none), c)
        | (.error message, c) => (.ok (outcomes, some (.reserveCommitFailed message)), c.rollback.2)
      else
        match c.rollback with
        | (.ok (), c) => (.ok (outcomes, persistErr), c)
        | (.error message, c) => (.error (.databaseError message), c)

def commitFailedErr : SlashingError → SlashingError
  | .reserveCommitFailed msg => .reserveCommitFailed msg
  | other => .reserveCommitFailed other.display

def replyFor : Option Reply → Option SlashingError → Option Reply
  | some (.error e), _ => some (.error e)
  | some (.ok reservation), none => some (.ok reservation)
  | some (.ok _), some err => some (.error (commitFailedErr err))
  | none, some err => some (.error (commitFailedErr err))
  | none, none => none

/-- `dispatch_outcomes`: missing outcomes are `None`; the answers are in batch order. -/
def dispatchOutcomes (batch : List QueuedReserve) (outcomes : List (Option Reply))
    (persistErr : Option SlashingError) : List (Option Reply) :=
  (batch.zip (outcomes ++ List.replicate (batch.length - outcomes.length) none)).map fun p =>
    replyFor p.2 persistErr

structure BatchFaults where
  begin : Option String
  commit : Option Fault

/-- The batch's answers, its persistence error, and the connection afterwards. -/
structure BatchResult where
  replies : List (Option Reply)
  persistErr : Option SlashingError
  conn : Conn Tables

def commitBatch (db : SlashingDb) (faults : BatchFaults) (batch : List QueuedReserve) (c : Conn Tables) : BatchResult :=
  if batch.isEmpty then
    ⟨[], none, c⟩
  else
    match c.withImmediateTxn .databaseError faults.begin (commitBody db batch faults.commit) with
    | (.ok (outcomes, persistErr), c) => ⟨dispatchOutcomes batch outcomes persistErr, persistErr, c⟩
    | (.error e, c) => ⟨dispatchOutcomes batch [] (some e), some e, c⟩

def runBatches (db : SlashingDb) : Conn Tables → List (BatchFaults × List QueuedReserve) →
    List BatchResult × Conn Tables
  | c, [] => ([], c)
  | c, (faults, batch) :: rest =>
      let result := commitBatch db faults batch c
      let (results, c) := runBatches db result.conn rest
      (result :: results, c)

/-- The specification: the reserves one at a time, each committed before the next is checked. -/
def reserveAll (db : SlashingDb) : Tables → List ReserveSpec → List Reply × Tables
  | t, [] => ([], t)
  | t, spec :: rest =>
      let (reply, t) := reserve db t spec
      let (replies, t) := reserveAll db t rest
      (reply :: replies, t)

/-! ### One turn of the loop -/

variable {reservation : CommittedReservation}

section

variable {db : SlashingDb} {base t : Tables} {item : QueuedReserve} {spec : ReserveSpec} {e : SlashingError}

theorem reserve_of_check_error (h : checkSpecInTxn db t spec = .error e) : reserve db t spec = (.error e, t) := by
  simp [reserve, reserveSteps, h, bind, Except.bind]

theorem reserve_of_gvr_error
    (h : checkSpecInTxn db t spec = .ok reservation) (hgvr : gvrMismatchOnConn t spec = .error e) :
    reserve db t spec = (.error e, t) := by
  simp [reserve, reserveSteps, h, hgvr, bind, Except.bind]

theorem reserve_of_accepted (h : checkSpecInTxn db t spec = .ok reservation)
    (hgvr : gvrMismatchOnConn t spec = .ok ()) :
    reserve db t spec = (.ok reservation, if reservation.inserted then t.withReserved spec else t) := by
  simp [reserve, reserveSteps, h, hgvr, insertSpec_of_accepted (checkSpecInTxn_ok_iff.mp h), bind, Except.bind]

/-- What a turn does inside a transaction with view `t` over the committed `base`. -/
inductive MemberStep (db : SlashingDb) (base t : Tables) (item : QueuedReserve) : MemberResult → Prop
  | skipped (h : item.Cancelled) : MemberStep db base t item ⟨none, none, ⟨base, some t⟩⟩
  | rejected {e : SlashingError} (h : reserve db t item.spec = (.error e, t)) :
      MemberStep db base t item ⟨some (.error e), none, ⟨base, some t⟩⟩
  | accepted {reservation : CommittedReservation} {t' : Tables} (hacc : SpecAccepted db t item.spec reservation)
      (h : reserve db t item.spec = (.ok reservation, t')) :
      MemberStep db base t item ⟨some (.ok reservation), none, ⟨base, some t'⟩⟩
  | failed {e : SlashingError} {c : Conn Tables} (h : c.committed = base) : MemberStep db base t item ⟨none, some e, c⟩

theorem MemberStep.ofError (h : reserve db t item.spec = (.error e, t)) :
    MemberStep db base t item (.ofError e ⟨base, some t⟩) := by
  unfold MemberResult.ofError
  split
  · exact .rejected h
  · exact .failed rfl

theorem commitMember_step (db : SlashingDb) (base t : Tables) (item : QueuedReserve) :
    MemberStep db base t item (commitMember db ⟨base, some t⟩ item) := by
  unfold commitMember
  by_cases hload : item.cancelledAtLoad
  · rw [if_pos hload]
    exact .skipped (.inl hload)
  rw [if_neg hload]
  -- a statement that fails names a database error, which is nobody's own rejection
  have hfault : ∀ fault : Fault, MemberStep db base t item
      (.ofError (.databaseError fault.message) (fail ⟨base, some t⟩ fault)) := fun fault =>
    .failed (fail_committed _ _)
  cases item.checkFault with
  | some fault => exact hfault fault
  | none =>
  rw [query_txn]
  rcases checkSpecInTxn_cases db t item.spec with ⟨e, hcheck, -⟩ | ⟨reservation, hcheck, hacc⟩
  · rw [hcheck]
    exact .ofError (reserve_of_check_error hcheck)
  rw [hcheck]
  dsimp only
  by_cases hclaim : item.cancelledAtClaim
  · rw [if_pos hclaim]
    exact .skipped (.inr hclaim)
  rw [if_neg hclaim]
  cases item.gvrFault with
  | some fault => exact hfault fault
  | none =>
  rw [query_txn]
  cases hgvr : gvrMismatchOnConn t item.spec with
  | error e => exact .ofError (reserve_of_gvr_error hcheck hgvr)
  | ok _ =>
  have hinsert := insertSpec_of_accepted hacc
  dsimp only
  by_cases hinserted : reservation.inserted
  · rw [if_pos hinserted]
    cases item.insertFault with
    | some fault => exact .failed (fail_committed _ _)
    | none =>
      rw [execute_txn _ _ hinsert]
      exact .accepted hacc (reserve_of_accepted hcheck hgvr)
  · rw [if_neg hinserted, execute_txn _ _ hinsert]
    exact .accepted hacc (reserve_of_accepted hcheck hgvr)

end

/-! ### The loop -/

/-- The loop when no statement fails: from the first view to the last, with what each member is told. -/
inductive Committed (db : SlashingDb) : Tables → List QueuedReserve → List (Option Reply) → Tables → Prop
  | nil (t : Tables) : Committed db t [] [] t
  | skip {t t' : Tables} {item : QueuedReserve} {items : List QueuedReserve}
      {outcomes : List (Option Reply)} (hitem : item.Cancelled) (hrest : Committed db t items outcomes t') :
      Committed db t (item :: items) (none :: outcomes) t'
  | reject {t t' : Tables} {item : QueuedReserve} {items : List QueuedReserve}
      {outcomes : List (Option Reply)} {e : SlashingError}
      (hitem : reserve db t item.spec = (.error e, t)) (hrest : Committed db t items outcomes t') :
      Committed db t (item :: items) (some (.error e) :: outcomes) t'
  | accept {t t₁ t' : Tables} {item : QueuedReserve} {items : List QueuedReserve}
      {outcomes : List (Option Reply)} {reservation : CommittedReservation}
      (hacc : SpecAccepted db t item.spec reservation)
      (hitem : reserve db t item.spec = (.ok reservation, t₁))
      (hrest : Committed db t₁ items outcomes t') :
      Committed db t (item :: items) (some (.ok reservation) :: outcomes) t'

theorem commitMembers_skip (db : SlashingDb) (c : Conn Tables) (e : SlashingError) (items : List QueuedReserve) :
    commitMembers db c (some e) items = ⟨List.replicate items.length none, some e, c⟩ := by
  induction items with
  | nil => rfl
  | cons item items ih =>
    rw [commitMembers, ih]
    rfl

theorem commitMembers_cases (db : SlashingDb) (base t : Tables) (items : List QueuedReserve) :
    (∃ outcomes t', commitMembers db ⟨base, some t⟩ none items = ⟨outcomes, none, ⟨base, some t'⟩⟩ ∧
        Committed db t items outcomes t') ∨
      ∃ outcomes e c, commitMembers db ⟨base, some t⟩ none items = ⟨outcomes, some e, c⟩ ∧
        c.committed = base := by
  induction items generalizing t with
  | nil => exact .inl ⟨[], t, rfl, .nil t⟩
  | cons item items ih =>
    rw [commitMembers]
    have hstep := commitMember_step db base t item
    generalize commitMember db ⟨base, some t⟩ item = r at hstep
    -- the first member decides which view the rest starts from
    cases hstep with
    | skipped hitem =>
      rcases ih t with ⟨outcomes, t', hrun, hrest⟩ | ⟨outcomes, e, c, hrun, hc⟩
      · exact .inl ⟨_, t', by rw [hrun]; rfl, .skip hitem hrest⟩
      · exact .inr ⟨_, e, c, by rw [hrun]; rfl, hc⟩
    | rejected hitem =>
      rcases ih t with ⟨outcomes, t', hrun, hrest⟩ | ⟨outcomes, e, c, hrun, hc⟩
      · exact .inl ⟨_, t', by rw [hrun]; rfl, .reject hitem hrest⟩
      · exact .inr ⟨_, e, c, by rw [hrun]; rfl, hc⟩
    | @accepted _ t₁ hacc hitem =>
      rcases ih t₁ with ⟨outcomes, t', hrun, hrest⟩ | ⟨outcomes, e, c, hrun, hc⟩
      · exact .inl ⟨_, t', by rw [hrun]; rfl, .accept hacc hitem hrest⟩
      · exact .inr ⟨_, e, c, by rw [hrun]; rfl, hc⟩
    | @failed e c hc =>
      exact .inr ⟨_, e, c, by rw [commitMembers_skip]; rfl, hc⟩

namespace Committed

variable {db : SlashingDb} {t t' : Tables} {items : List QueuedReserve} {outcomes : List (Option Reply)}

theorem length_eq (h : Committed db t items outcomes t') : outcomes.length = items.length := by
  induction h with
  | nil => rfl
  | skip _ _ ih | reject _ _ ih | accept _ _ _ ih => simp [ih]

theorem append {t₁ : Tables} {items' : List QueuedReserve} {outcomes' : List (Option Reply)}
    (h : Committed db t items outcomes t₁) (h' : Committed db t₁ items' outcomes' t') :
    Committed db t (items ++ items') (outcomes ++ outcomes') t' := by
  induction h with
  | nil => exact h'
  | skip hitem _ ih => exact .skip hitem (ih h')
  | reject hitem _ ih => exact .reject hitem (ih h')
  | accept hacc hitem _ ih => exact .accept hacc hitem (ih h')

section

variable (h : Committed db t items outcomes t')

include h

theorem eq_of_none_accepted (hnone : outcomes.any isAccepted = false) : t' = t := by
  induction h with
  | nil => rfl
  | skip _ _ ih | reject _ _ ih => exact ih (by simpa [isAccepted] using hnone)
  | accept => simp [isAccepted] at hnone

theorem answered : List.Forall₂ (fun item outcome => ¬ item.Cancelled → outcome.isSome) items outcomes := by
  induction h with
  | nil => exact .nil
  | skip hitem _ ih => exact .cons (fun hlive => absurd hitem hlive) ih
  | reject _ _ ih | accept _ _ _ ih => exact .cons (fun _ => rfl) ih

theorem eq_reserveAll (hlive : ∀ item ∈ items, ¬ item.Cancelled) :
    outcomes = (reserveAll db t (items.map (·.spec))).1.map some ∧
      t' = (reserveAll db t (items.map (·.spec))).2 := by
  induction h with
  | nil => exact ⟨rfl, rfl⟩
  | skip hitem => exact absurd hitem (hlive _ mem_cons_self)
  | reject hitem _ ih | accept _ hitem _ ih =>
    obtain ⟨hout, ht⟩ := ih fun item hmem => hlive item (mem_cons_of_mem _ hmem)
    simp only [map_cons, reserveAll, hitem]
    exact ⟨by rw [hout], ht⟩

end

end Committed

/-! ### The batch -/

theorem replyFor_none (outcome : Option Reply) : replyFor outcome none = outcome := by
  rcases outcome with _ | _ | _ <;> rfl

theorem replyFor_some (outcome : Option Reply) (err : SlashingError) :
    ∃ e, replyFor outcome (some err) = some (.error e) := by
  rcases outcome with _ | _ | _ <;> exact ⟨_, rfl⟩

theorem dispatchOutcomes_none {batch : List QueuedReserve} {outcomes : List (Option Reply)}
    (h : outcomes.length = batch.length) : dispatchOutcomes batch outcomes none = outcomes := by
  unfold dispatchOutcomes
  rw [h, Nat.sub_self, replicate_zero, append_nil]
  simp only [replyFor_none]
  exact map_snd_zip h.le

theorem dispatchOutcomes_some (batch : List QueuedReserve) (outcomes : List (Option Reply)) (err : SlashingError) :
    List.Forall₂ (fun _ reply => ∃ e, reply = some (.error e)) batch (dispatchOutcomes batch outcomes (some err)) := by
  refine forall₂_iff_zip.mpr ⟨?_, fun {item reply} hmem => ?_⟩
  · simp only [dispatchOutcomes, length_map, length_zip, length_append, length_replicate]
    omega
  · obtain ⟨p, -, rfl⟩ := mem_map.mp (of_mem_zip hmem).2
    exact replyFor_some p.2 err

/-- What a batch ends in: the loop's view committed and its outcomes sent, or nothing committed and an
error sent to every member. -/
inductive BatchOutcome (db : SlashingDb) (t : Tables) (batch : List QueuedReserve) : BatchResult → Prop
  | committed {replies : List (Option Reply)} {t' : Tables} (h : Committed db t batch replies t') :
      BatchOutcome db t batch ⟨replies, none, ⟨t', none⟩⟩
  | failed {replies : List (Option Reply)} {err : SlashingError}
      (h : List.Forall₂ (fun _ reply => ∃ e, reply = some (.error e)) batch replies) :
      BatchOutcome db t batch ⟨replies, some err, ⟨t, none⟩⟩

theorem commitBody_cases (db : SlashingDb) (t : Tables) (batch : List QueuedReserve) (commitFault : Option Fault) :
    (∃ outcomes t', Committed db t batch outcomes t' ∧
        commitBody db batch commitFault ⟨t, some t⟩ = (.ok (outcomes, none), ⟨t', none⟩)) ∨ (∃ outcomes err,
        commitBody db batch commitFault ⟨t, some t⟩ = (.ok (outcomes, some err), ⟨t, none⟩)) ∨
      ∃ err c, commitBody db batch commitFault ⟨t, some t⟩ = (.error err, c) ∧ c.committed = t := by
  unfold commitBody
  rcases commitMembers_cases db t t batch with ⟨outcomes, t', hrun, hcommitted⟩ | ⟨outcomes, e, c, hrun, hc⟩
  · rw [hrun]
    cases hany : outcomes.any isAccepted with
    | false =>
      -- all rejected or cancelled: the rollback undoes nothing
      obtain rfl := hcommitted.eq_of_none_accepted hany
      exact .inl ⟨outcomes, t', hcommitted, by simp [hany, rollback]⟩
    | true =>
      rcases commit_cases t t' commitFault with hok | ⟨message, c, herr, hc⟩
      · exact .inl ⟨outcomes, t', hcommitted, by simp [hany, hok]⟩
      · exact .inr (.inl ⟨outcomes, .reserveCommitFailed message, by
          simp [hany, herr, eq_of_rollback hc]⟩)
  · rw [hrun]
    rcases c with ⟨committed, _ | s⟩
    · -- the engine rolled back on its own, so this `ROLLBACK` fails and the closure returns the error
      exact .inr (.inr ⟨_, _, rfl, hc⟩)
    · obtain rfl : committed = t := hc
      exact .inr (.inl ⟨outcomes, e, rfl⟩)

theorem commitBatch_outcome (db : SlashingDb) (faults : BatchFaults) (batch : List QueuedReserve)
    (t : Tables) : BatchOutcome db t batch (commitBatch db faults batch ⟨t, none⟩) := by
  unfold commitBatch
  by_cases hempty : batch.isEmpty
  · obtain rfl := isEmpty_iff.mp hempty
    exact .committed (.nil t)
  rw [if_neg hempty]
  rcases withImmediateTxn_cases SlashingError.databaseError (c := ⟨t, none⟩) rfl faults.begin
    (commitBody db batch faults.commit) with ⟨message, h⟩ | ⟨a, c, hbody, h⟩ | ⟨e, c, hbody, h⟩
  · rw [h]
    exact .failed (dispatchOutcomes_some _ _ _)
  · rw [h]
    rcases commitBody_cases db t batch faults.commit with
      ⟨outcomes, t', hcommitted, hrun⟩ | ⟨outcomes, err, hrun⟩ | ⟨err, c', hrun, -⟩
    · obtain ⟨ha, rfl⟩ := mk.inj (hbody.symm.trans hrun)
      cases ha
      have hreplies := dispatchOutcomes_none hcommitted.length_eq
      show BatchOutcome db t batch ⟨dispatchOutcomes batch outcomes none, none, _⟩
      rw [hreplies]
      exact .committed hcommitted
    · obtain ⟨ha, rfl⟩ := mk.inj (hbody.symm.trans hrun)
      cases ha
      exact .failed (dispatchOutcomes_some _ _ _)
    · cases (mk.inj (hbody.symm.trans hrun)).1
  · rw [h]
    rcases commitBody_cases db t batch faults.commit with
      ⟨outcomes, t', -, hrun⟩ | ⟨outcomes, err, hrun⟩ | ⟨err, c', hrun, hc⟩
    · cases (mk.inj (hbody.symm.trans hrun)).1
    · cases (mk.inj (hbody.symm.trans hrun)).1
    · cases hbody.symm.trans hrun
      rw [eq_of_rollback hc]
      exact .failed (dispatchOutcomes_some _ _ _)

/-! ### Batches are the reserves one at a time -/

theorem runBatches_committed {db : SlashingDb} {t : Tables} {batches : List (BatchFaults × List QueuedReserve)}
    (hpersist : ∀ result ∈ (runBatches db ⟨t, none⟩ batches).1, result.persistErr = none) :
    ∃ t', (runBatches db ⟨t, none⟩ batches).2 = ⟨t', none⟩ ∧ Committed db t (batches.flatMap (·.2))
        ((runBatches db ⟨t, none⟩ batches).1.flatMap (·.replies)) t' := by
  induction batches generalizing t with
  | nil => exact ⟨t, rfl, .nil t⟩
  | cons head rest ih =>
    obtain ⟨faults, batch⟩ := head
    simp only [runBatches, mem_cons, forall_eq_or_imp, flatMap_cons] at hpersist ⊢
    obtain ⟨hfirst, hpersist⟩ := hpersist
    have hout := commitBatch_outcome db faults batch t
    generalize commitBatch db faults batch ⟨t, none⟩ = result at hout hfirst hpersist
    cases hout with
    | failed => cases hfirst
    | committed hcommitted =>
      obtain ⟨t', hconn, hrest⟩ := ih hpersist
      exact ⟨t', hconn, hcommitted.append hrest⟩

/-- **Group commit refines sequential reserves**: however the queue is cut into batches, if nobody is
cancelled and no batch meets a persistence error, the answers and the committed tables are those of
the reserves one at a time. -/
theorem group_commit_refines_sequential (db : SlashingDb) (t : Tables)
    (batches : List (BatchFaults × List QueuedReserve)) (queue : List QueuedReserve)
    (hcut : batches.flatMap (·.2) = queue) (hlive : ∀ item ∈ queue, ¬ item.Cancelled)
    (hpersist : ∀ result ∈ (runBatches db ⟨t, none⟩ batches).1, result.persistErr = none) :
    (runBatches db ⟨t, none⟩ batches).1.flatMap (·.replies) = (reserveAll db t (queue.map (·.spec))).1.map some ∧
      (runBatches db ⟨t, none⟩ batches).2 = ⟨(reserveAll db t (queue.map (·.spec))).2, none⟩ := by
  obtain ⟨t', hconn, hcommitted⟩ := runBatches_committed hpersist
  rw [hcut] at hcommitted
  obtain ⟨hreplies, rfl⟩ := hcommitted.eq_reserveAll hlive
  exact ⟨hreplies, hconn⟩

/-- An attestation of one validator, and who else shares its batch. -/
def sampleReserve (source target : Nat) (root : String) : QueuedReserve :=
  ⟨.of "0xaa" (.attestation source target) (some root) zeroRoot, false, false, none, none, none⟩

/-- Two batches: a vote, a double vote against it, and in the second batch the first vote again. -/
def sampleBatches : List (BatchFaults × List QueuedReserve) :=
  [(⟨none, none⟩, [sampleReserve 1 2 "r1", sampleReserve 0 2 "r2"]), (⟨none, none⟩, [sampleReserve 1 2 "r1"])]

theorem group_commit_refines_sequential_sample :
    (runBatches ⟨true, 0⟩ ⟨Tables.empty, none⟩ sampleBatches).1.flatMap (·.replies) = (reserveAll ⟨true, 0⟩ Tables.empty
          ([sampleReserve 1 2 "r1", sampleReserve 0 2 "r2", sampleReserve 1 2 "r1"].map (·.spec))).1.map some ∧
      (runBatches ⟨true, 0⟩ ⟨Tables.empty, none⟩ sampleBatches).2 = ⟨(reserveAll ⟨true, 0⟩ Tables.empty
          ([sampleReserve 1 2 "r1", sampleReserve 0 2 "r2", sampleReserve 1 2 "r1"].map (·.spec))).2, none⟩ :=
  group_commit_refines_sequential ⟨true, 0⟩ empty sampleBatches _ rfl (by decide) (by decide +kernel)

/-! ### All or nothing -/

/-- The row of `spec` is stored; for a repeat, one with its pubkey, slot or target, and root. -/
def ReserveSpec.Recorded (spec : ReserveSpec) (inserted : Bool) (t : Tables) : Prop :=
  match spec.kind, inserted with
  | .block slot, true => spec.blockRow slot ∈ t.blocks
  | .block slot, false => ∃ row ∈ t.blocks, row.pubkey = spec.pubkey ∧ row.slot = asI64 slot ∧
      row.signingRoot = spec.signingRootHex
  | .attestation source target, true => spec.attestationRow source target ∈ t.attestations
  | .attestation _ target, false => ∃ row ∈ t.attestations, row.pubkey = spec.pubkey ∧
      row.targetEpoch = asI64 target ∧ row.signingRoot = spec.signingRootHex

/-- The members whose answer says that their row was inserted. -/
def insertedSpecs (batch : List QueuedReserve) (replies : List (Option Reply)) : List ReserveSpec :=
  (batch.zip replies).filterMap fun p =>
    match p.2 with
    | some (.ok reservation) => if reservation.inserted then some p.1.spec else none
    | _ => none

def Tables.RowsIn (t t' : Tables) : Prop :=
  (∀ row ∈ t.attestations, row ∈ t'.attestations) ∧ ∀ row ∈ t.blocks, row ∈ t'.blocks

theorem Tables.RowsIn.refl (t : Tables) : t.RowsIn t := ⟨fun _ h => h, fun _ h => h⟩

theorem Tables.RowsIn.trans {t₁ t₂ t₃ : Tables} (h : t₁.RowsIn t₂) (h' : t₂.RowsIn t₃) : t₁.RowsIn t₃ :=
  ⟨fun row hrow => h'.1 row (h.1 row hrow), fun row hrow => h'.2 row (h.2 row hrow)⟩

theorem Tables.rowsIn_withReserved (t : Tables) (spec : ReserveSpec) : t.RowsIn (t.withReserved spec) := by
  unfold withReserved
  cases spec.kind with
  | block slot => exact ⟨fun _ h => h, fun _ h => mem_append_left _ h⟩
  | attestation source target => exact ⟨fun _ h => mem_append_left _ h, fun _ h => h⟩

variable {spec : ReserveSpec}

theorem ReserveSpec.Recorded.mono {inserted : Bool} {t t' : Tables}
    (h : spec.Recorded inserted t) (hrows : t.RowsIn t') : spec.Recorded inserted t' := by
  unfold ReserveSpec.Recorded at h ⊢
  cases hkind : spec.kind with
  | block slot =>
    rw [hkind] at h
    cases inserted with
    | true => exact hrows.2 _ h
    | false =>
      obtain ⟨row, hrow, hsame⟩ := h
      exact ⟨row, hrows.2 row hrow, hsame⟩
  | attestation source target =>
    rw [hkind] at h
    cases inserted with
    | true => exact hrows.1 _ h
    | false =>
      obtain ⟨row, hrow, hsame⟩ := h
      exact ⟨row, hrows.1 row hrow, hsame⟩

theorem SpecAccepted.recorded {db : SlashingDb} {t : Tables} (h : SpecAccepted db t spec reservation) :
    spec.Recorded reservation.inserted (if reservation.inserted then t.withReserved spec else t) := by
  cases h with
  | @block slot verdict hkind hacc =>
    cases verdict with
    | stage => simp [reservation, ReserveSpec.Recorded, withReserved, hkind]
    | resign =>
      obtain ⟨row, hrow, hres⟩ := hacc.slot
      obtain ⟨hmem, hpk, hslot⟩ := rowAtSlot_some hrow
      simp only [reservation, ReserveSpec.Recorded, hkind]
      exact ⟨row, hmem, hpk, hslot, eq_of_isResign hres⟩
  | @attestation source target verdict hkind hacc =>
    cases verdict with
    | stage => simp [reservation, ReserveSpec.Recorded, withReserved, hkind]
    | duplicate =>
      obtain ⟨row, hrow, hres⟩ := hacc.target
      obtain ⟨hmem, hpk, htarget⟩ := rowAtTarget_some hrow
      simp only [reservation, ReserveSpec.Recorded, hkind]
      exact ⟨row, hmem, hpk, htarget, eq_of_isResign hres⟩

namespace Committed

variable {db : SlashingDb} {t t' : Tables} {items : List QueuedReserve} {outcomes : List (Option Reply)}

theorem accepted_tables {t₁ : Tables} (h : reserve db t spec = (.ok reservation, t₁)) :
    t₁ = if reservation.inserted then t.withReserved spec else t := by
  rcases reserve_cases db t spec with ⟨e, he⟩ | ⟨other, -, hok⟩
  · cases (mk.inj (he.symm.trans h)).1
  · obtain ⟨hres, htables⟩ := mk.inj (hok.symm.trans h)
    cases hres
    exact htables.symm

section

variable (h : Committed db t items outcomes t')

include h

theorem rowsIn : t.RowsIn t' := by
  induction h with
  | nil t => exact .refl t
  | skip _ _ ih | reject _ _ ih => exact ih
  | accept hacc hitem _ ih =>
    refine Tables.RowsIn.trans ?_ ih
    rw [accepted_tables hitem]
    split
    · exact rowsIn_withReserved _ _
    · exact .refl _

theorem tables_eq : t' = (insertedSpecs items outcomes).foldl Tables.withReserved t := by
  induction h with
  | nil => rfl
  | skip _ _ ih | reject _ _ ih => exact ih
  | @accept _ _ _ item items outcomes reservation hacc hitem _ ih =>
    rw [accepted_tables hitem] at ih
    rw [ih]
    cases hins : reservation.inserted <;> simp [insertedSpecs, hins]

theorem recorded : List.Forall₂ (fun item outcome => ∀ reservation, outcome = some (.ok reservation) →
      item.spec.Recorded reservation.inserted t') items outcomes := by
  induction h with
  | nil => exact .nil
  | skip _ _ ih | reject _ _ ih => exact .cons (fun _ h => by cases h) ih
  | accept hacc hitem hrest ih =>
    refine .cons (fun reservation h => ?_) ih
    cases h
    exact (accepted_tables hitem ▸ hacc.recorded).mono hrest.rowsIn

end

end Committed

theorem not_accepted_of_errors {batch : List QueuedReserve} {replies : List (Option Reply)}
    (h : List.Forall₂ (fun _ reply => ∃ e, reply = some (.error e)) batch replies)
    (reservation : CommittedReservation) : some (.ok reservation) ∉ replies := by
  induction h with
  | nil => simp
  | cons hhead _ ih =>
    obtain ⟨e, rfl⟩ := hhead
    simp [ih]

structure BatchResult.Atomic (result : BatchResult) (t : Tables) (batch : List QueuedReserve) : Prop where
  /-- The rows of exactly the members that were told so are committed, and every accepted member has its
  row there; or nothing is committed and nobody was accepted. -/
  allOrNothing : (result.conn.committed = (insertedSpecs batch result.replies).foldl Tables.withReserved t ∧
      List.Forall₂ (fun item reply => ∀ reservation, reply = some (.ok reservation) →
        item.spec.Recorded reservation.inserted result.conn.committed) batch result.replies) ∨
    (result.conn.committed = t ∧ ∀ reservation, some (.ok reservation) ∉ result.replies)
  answered : List.Forall₂ (fun item reply => ¬ item.Cancelled → reply.isSome) batch result.replies
  closed : result.conn.txn = none

/-- **Group commit is atomic and answers every waiter once**, whatever fails and whoever is cancelled. -/
theorem group_commit_atomic (db : SlashingDb) (faults : BatchFaults) (batch : List QueuedReserve)
    (t : Tables) : (commitBatch db faults batch ⟨t, none⟩).Atomic t batch := by
  have hout := commitBatch_outcome db faults batch t
  generalize commitBatch db faults batch ⟨t, none⟩ = result at hout
  cases hout with
  | committed h => exact ⟨.inl ⟨h.tables_eq, h.recorded⟩, h.answered, rfl⟩
  | failed h =>
    exact ⟨.inr ⟨rfl, not_accepted_of_errors h⟩, h.imp fun _ _ ⟨e, he⟩ _ => by rw [he]; rfl, rfl⟩

end Rvc.Slashing
