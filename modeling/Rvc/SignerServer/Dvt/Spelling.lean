import Rvc.SignerServer.Dvt.PeerService
import Rvc.Slashing.Rejections

/-!
# A root spelled in two ways

The gate reserves a row with the signing root as bare hex (`reserve_then_sign_duty`), the peer service stages one
with `0x` in front (`root_hex`). The rules tell a repeat from a double vote by the text of the root, so on one
database a duty is a repeat on the path that signed it and a slashable message on the other.
-/

namespace Rvc.SignerServer.Dvt

open Rvc.Lib Rvc.EthTypes Rvc.Slashing Rvc.Observability Rvc.Signer Operation Tables

inductive SignPath where
  | gate
  | peer
  deriving DecidableEq

structure Duty where
  pubkey : Signer.PubkeyBytes
  kind : ReservationKind
  signingRoot : Root
  gvr : Root

namespace SignPath

def pubkeyText : SignPath → Signer.PubkeyBytes → String
  | .gate, pubkey => Hex.encode pubkey.1
  | .peer, pubkey => pubkeyHex pubkey

def rootText : SignPath → Root → String
  | .gate, root => Hex.encode root.1
  | .peer, root => rootHex root

/-- The call by which the path gets a duty its row: `reserve_block` or `reserve_attestation` of the gate, and
`stage_block` or `stage_attestation` with the commit of the peer service. -/
def request (path : SignPath) (duty : Duty) : Operation :=
  match path with
  | .gate => .reserve (pubkeyText .gate duty.pubkey) duty.kind (some (rootText .gate duty.signingRoot)) duty.gvr
  | .peer => .stage (pubkeyText .peer duty.pubkey) duty.kind (some (rootText .peer duty.signingRoot)) duty.gvr

def spec (path : SignPath) (duty : Duty) : ReserveSpec :=
  .of (path.pubkeyText duty.pubkey) duty.kind (some (path.rootText duty.signingRoot)) duty.gvr

theorem spec_pubkey (path other : SignPath) (duty : Duty) : (path.spec duty).pubkey = (other.spec duty).pubkey := by
  cases path <;> cases other <;> simp [spec, ReserveSpec.of, pubkeyText, normalizePubkey_pubkeyHex]

theorem rootText_inj {path other : SignPath} {root : Root} (h : path.rootText root = other.rootText root) :
    path = other := by
  cases path <;> cases other
  · rfl
  · exact absurd h.symm (rootHex_ne_encode root root.1)
  · exact absurd h (rootHex_ne_encode root root.1)
  · rfl

/-! ### The requests -/

/-- What is left to fail once the rules accept: the gate compares the pinned root as text inside the transaction. -/
def lateCheck (path : SignPath) (t : Tables) (duty : Duty) : Except SlashingError Unit :=
  match path with
  | .gate => gvrMismatchOnConn t (spec .gate duty)
  | .peer => .ok ()

variable {db : SlashingDb} {t t' : Tables} {path other : SignPath} {duty : Duty}

theorem request_run_error {e : SlashingError} (h : checkGvrBeforeLock t duty.gvr = .error e) :
    (path.request duty).run db t = (.error e, t) := by
  cases path with
  | gate => simp [request, run, reserveMessage_error h, Except.map]
  | peer => simp [request, run, stageMessage_error h]

theorem request_run_eq (h : checkGvrBeforeLock t duty.gvr = .ok ()) : (path.request duty).run db t =
      match checkSpecInTxn db t (path.spec duty), path.lateCheck t duty with
      | .error e, _ | .ok _, .error e => (.error e, t)
      | .ok reservation, .ok () => (.ok (), t.afterReserve (path.spec duty) reservation) := by
  cases path with
  | gate =>
    have heq : reserveMessage db t (pubkeyText .gate duty.pubkey) duty.kind
        (some (rootText .gate duty.signingRoot)) duty.gvr = reserve db t (spec .gate duty) := reserveMessage_eq h
    simp only [request, run, heq, lateCheck]
    cases hcheck : checkSpecInTxn db t (spec .gate duty) with
    | error e => simp only [reserve_of_check_error hcheck, Except.map]
    | ok reservation =>
      cases hlate : gvrMismatchOnConn t (spec .gate duty) with
      | error e => simp only [reserve_of_gvr_error hcheck hlate, Except.map]
      | ok => simp only [reserve_of_accepted hcheck hlate, Except.map, afterReserve]
  | peer =>
    have heq : stageMessage db t (pubkeyText .peer duty.pubkey) duty.kind
        (some (rootText .peer duty.signingRoot)) duty.gvr = _ := stageMessage_eq h
    simp only [request, run, heq, lateCheck]
    rw [show ReserveSpec.of _ _ _ _ = spec .peer duty from rfl]
    cases checkSpecInTxn db t (spec .peer duty) <;> rfl

theorem request_run_ok_iff : (path.request duty).run db t = (.ok (), t') ↔ checkGvrBeforeLock t duty.gvr = .ok () ∧
      path.lateCheck t duty = .ok () ∧ ∃ reservation, checkSpecInTxn db t (path.spec duty) = .ok reservation ∧
        t' = t.afterReserve (path.spec duty) reservation := by
  cases hgvr : checkGvrBeforeLock t duty.gvr with
  | error e => simp [request_run_error hgvr]
  | ok =>
    rw [request_run_eq hgvr]
    cases checkSpecInTxn db t (path.spec duty) with
    | error e => simp
    | ok reservation => cases path.lateCheck t duty <;> simp [eq_comm]

theorem request_again (h : (path.request duty).run db t = (.ok (), t')) :
    (path.request duty).run db t' = (.ok (), t') := by
  obtain ⟨hgvr, hlate, reservation, hcheck, rfl⟩ := request_run_ok_iff.mp h
  have hpin : (t.afterReserve (path.spec duty) reservation).metadataGvr = t.metadataGvr :=
    afterReserve_metadataGvr
  refine request_run_ok_iff.mpr ⟨?_, ?_, _, checkSpecInTxn_ok_iff.mpr ((checkSpecInTxn_ok_iff.mp hcheck).again rfl),
    (if_neg Bool.false_ne_true).symm⟩
  · rw [checkGvrBeforeLock_ok_iff, hpin]
    exact checkGvrBeforeLock_ok_iff.mp hgvr
  · cases path with
    | peer => rfl
    | gate =>
      unfold lateCheck gvrMismatchOnConn at hlate ⊢
      rwa [hpin]

theorem accepted_of_repeat (h : (path.request duty).run db t = (.ok (), t)) :
    ∃ reservation, SpecAccepted db t (path.spec duty) reservation ∧ reservation.inserted = false := by
  obtain ⟨-, -, reservation, hcheck, htables⟩ := request_run_ok_iff.mp h
  refine ⟨reservation, checkSpecInTxn_ok_iff.mp hcheck, Bool.eq_false_iff.mpr fun hinserted => ?_⟩
  rw [afterReserve, if_pos hinserted] at htables
  exact withReserved_ne t _ htables.symm

end SignPath

open SignPath

/-- **A repeat is a repeat on one path only.** What a path has accepted, it accepts again and changes nothing. In
every state in which it does, the same request on the other path is refused as slashable. -/
theorem repeat_accepted_iff (db : SlashingDb) (path other : SignPath) (duty : Duty) :
    (∀ t t', (path.request duty).run db t = (.ok (), t') → (path.request duty).run db t' = (.ok (), t')) ∧
      ∀ t, (path.request duty).run db t = (.ok (), t) → ((other.request duty).run db t = (.ok (), t) ↔ other = path) ∧
          (other ≠ path → ∃ e, e.isEip3076 = true ∧ (other.request duty).run db t = (.error e, t)) := by
  refine ⟨fun t t' => request_again, fun t h => ?_⟩
  have hrefused : other ≠ path → ∃ e, e.isEip3076 = true ∧ (other.request duty).run db t = (.error e, t) := by
    intro hne
    obtain ⟨reservation, hacc, hrepeat⟩ := accepted_of_repeat h
    rcases checkSpecInTxn_cases db t (other.spec duty) with ⟨e, hcheck, he⟩ | ⟨reservation', -, hacc'⟩
    · exact ⟨e, he, by rw [request_run_eq (request_run_ok_iff.mp h).1, hcheck]⟩
    · have hroot := hacc.rootText_eq hrepeat hacc' (spec_pubkey other path duty) rfl
      exact absurd (rootText_inj (Option.some.inj hroot)) hne
  refine ⟨⟨fun hother => ?_, fun heq => heq ▸ h⟩, hrefused⟩
  by_contra hne
  obtain ⟨e, -, herror⟩ := hrefused hne
  cases (Prod.mk.inj (hother.symm.trans herror)).1

def sampleDuty : Duty :=
  ⟨⟨List.replicate 48 21, rfl⟩, .block 5, ⟨List.replicate 32 22, rfl⟩, ⟨List.replicate 32 23, rfl⟩⟩

theorem request_sampleDuty_empty (path : SignPath) :
    ((path.request sampleDuty).run ⟨true, 0⟩ Tables.empty).1 = .ok () := by
  have hlate : path.lateCheck empty sampleDuty = .ok () := by cases path <;> rfl
  rw [request_run_ok_iff.mpr ⟨rfl, hlate, (path.spec sampleDuty).reservation true, rfl, rfl⟩]

/-- Signed through the gate and asked for again: the gate repeats it, and the peer service answers that it is a
double proposal. -/
theorem gate_repeat_refused_by_peer : ((SignPath.gate.request sampleDuty).run ⟨true, 0⟩ Tables.empty).1 = .ok () ∧
      ((SignPath.gate.request sampleDuty).run ⟨true, 0⟩
        ((SignPath.gate.request sampleDuty).run ⟨true, 0⟩ Tables.empty).2).1 = .ok () ∧
      ((SignPath.peer.request sampleDuty).run ⟨true, 0⟩
        ((SignPath.gate.request sampleDuty).run ⟨true, 0⟩ Tables.empty).2).1 =
          .error (.slashableBlock (.doubleBlockProposal 5)) := by
  have hsigned := request_sampleDuty_empty .gate
  have hagain := request_again (Prod.ext hsigned rfl)
  exact ⟨hsigned, congrArg Prod.fst hagain, by decide +kernel⟩

/-- The other way round: signed through the peer service, refused by the gate. -/
theorem repeat_accepted_iff_peer : ∃ e, e.isEip3076 = true ∧ (SignPath.gate.request sampleDuty).run ⟨true, 0⟩
          ((SignPath.peer.request sampleDuty).run ⟨true, 0⟩ Tables.empty).2 =
        (.error e, ((SignPath.peer.request sampleDuty).run ⟨true, 0⟩ Tables.empty).2) := by
  have hsigned := request_sampleDuty_empty .peer
  obtain ⟨hagain, hother⟩ := repeat_accepted_iff ⟨true, 0⟩ .peer .gate sampleDuty
  exact (hother _ (hagain _ _ (Prod.ext hsigned rfl))).2 (by decide)

end Rvc.SignerServer.Dvt
