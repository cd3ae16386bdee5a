import Rvc.SignerServer.Dvt.Spelling
import Rvc.Slashing.Interchange.Roots

/-!
# The grammar of exported roots

On the wire a signing root is absent or `0x` and 64 hex digits. The peer service and files in this grammar write such
roots, the gate writes bare digits, and nothing between the rows and the file puts the `0x` there. So an exported
file is in the grammar exactly when none of the rows it copies is the gate's.
-/

namespace Rvc.SignerServer.Dvt

open Rvc.Lib Rvc.EthTypes Rvc.Slashing Rvc.Observability Rvc.Signer Hex List

/-! ### Root texts -/

def isWireRoot (text : String) : Bool :=
  match text.toList with
  | '0' :: 'x' :: digits => digits.length = 64 && digits.all fun c => (Hex.digitValue c).isSome
  | _ => false

def WireRoot (signingRoot : Option String) : Prop := ∀ text, signingRoot = some text → isWireRoot text = true

def GateRoot (signingRoot : Option String) : Prop := ∃ root : Root, signingRoot = some (SignPath.gate.rootText root)

theorem length_encode (bytes : List UInt8) : (Hex.encode bytes).toList.length = 2 * bytes.length := by
  induction bytes with
  | nil => rfl
  | cons b bytes ih =>
    simp only [encode, String.toList_ofList, flatMap_cons, length_append] at ih ⊢
    rw [ih, length_cons, show (encodeByte b).length = 2 from rfl]
    omega

theorem isWireRoot_rootHex (root : Root) : isWireRoot (rootHex root) = true := by
  have htext : (rootHex root).toList = '0' :: 'x' :: (encode root.1).toList := by
    simp [rootHex]
  have hlength : (encode root.1).toList.length = 64 := by
    rw [length_encode, root.2]
  have hdigits : ∀ c ∈ (encode root.1).toList, (digitValue c).isSome = true := by
    intro c hc
    obtain ⟨n, hn, rfl⟩ := mem_encode hc
    rw [digitValue_digitChar n hn]
    rfl
  simp only [isWireRoot, htext, hlength, decide_true, Bool.true_and, all_eq_true]
  exact hdigits

theorem isWireRoot_encode (bytes : List UInt8) : isWireRoot (Hex.encode bytes) = false := by
  unfold isWireRoot
  split
  next digits htext =>
    have hmem : 'x' ∈ (encode bytes).toList := by simp [htext]
    obtain ⟨n, hn, hchar⟩ := mem_encode hmem
    exact absurd hchar.symm (digitChar_ne_x n hn).1
  next => rfl

theorem wireRoot_none : WireRoot none := fun _ h => by cases h

/-- A root that one of the writers wrote is on the wire as it should be exactly if the gate did not write it. -/
theorem wireRoot_iff {signingRoot : Option String} (h : WireRoot signingRoot ∨ GateRoot signingRoot) :
    WireRoot signingRoot ↔ ¬ GateRoot signingRoot := by
  have hnot : GateRoot signingRoot → ¬ WireRoot signingRoot := by
    rintro ⟨root, rfl⟩ hwire
    exact Bool.false_ne_true ((isWireRoot_encode root.1).symm.trans (hwire _ rfl))
  exact ⟨fun hwire hgate => hnot hgate hwire, h.resolve_right⟩

/-! ### The writers -/

/-- The calls on a database in production: requests of the two paths, imports of files in the grammar, and calls
that write no root. -/
inductive Written : Operation → Prop
  | signed (path : SignPath) (duty : Duty) : Written (path.request duty)
  | imported {file : InterchangeFormat} {gvr : Root} (h : file.RootsIn WireRoot) : Written (.importFile file gvr)
  | reconciled (reservation : CommittedReservation) : Written (.reconcile reservation)
  | pruned : Written .prune
  | blockRaised (pubkey : String) (slot : UInt64) : Written (.setBlockWatermark pubkey slot)
  | attestationRaised (pubkey : String) (sourceEpoch targetEpoch : UInt64) :
      Written (.setAttestationWatermark pubkey sourceEpoch targetEpoch)

variable {operation : Operation}

theorem Written.rootsIn (h : Written operation) : operation.RootsIn fun root => WireRoot root ∨ GateRoot root := by
  cases h with
  | signed path duty =>
    cases path with
    | gate => exact .inr ⟨duty.signingRoot, rfl⟩
    | peer => exact .inl fun text htext => Option.some.inj htext ▸ isWireRoot_rootHex duty.signingRoot
  | imported hfile => exact hfile.mono fun _ => .inl
  | reconciled | pruned | blockRaised | attestationRaised => trivial

theorem Written.wireRoots (h : Written operation) (hgate : ∀ duty, operation ≠ SignPath.gate.request duty) :
    operation.RootsIn WireRoot := by
  cases h with
  | signed path duty =>
    cases path with
    | gate => exact absurd rfl (hgate duty)
    | peer => exact fun text htext => Option.some.inj htext ▸ isWireRoot_rootHex duty.signingRoot
  | imported hfile => exact hfile
  | reconciled | pruned | blockRaised | attestationRaised => trivial

/-! ### The export -/

/-- **Exported roots are in the grammar exactly when no copied row is the gate's.** In particular they are after a
run in which the gate signed nothing. -/
theorem exported_roots_conform_iff (db : SlashingDb) (pinned : Option String) (operations : List Operation)
    (hwritten : ∀ operation ∈ operations, Written operation) {t : Tables}
    (ht : Operation.runAll db { Tables.empty with metadataGvr := pinned } operations = t) {gvr : Root}
    {file : InterchangeFormat} (hexport : exportInterchange t gvr = .ok file) :
    (file.RootsIn WireRoot ↔
        (∀ row ∈ t.attestations, t.CopiesAttestation row → ¬ GateRoot row.signingRoot) ∧
          ∀ row ∈ t.blocks, t.CopiesBlock row → ¬ GateRoot row.signingRoot) ∧
      ((∀ operation ∈ operations, ∀ duty, operation ≠ SignPath.gate.request duty) → file.RootsIn WireRoot) := by
  subst ht
  have hroots : Tables.RootsIn (fun root => WireRoot root ∨ GateRoot root) (Operation.runAll db _ operations) :=
    (Tables.rootsIn_empty pinned).runAll fun operation hop => (hwritten operation hop).rootsIn
  have hiff := exportInterchange_rootsIn_iff wireRoot_none hexport
  refine ⟨hiff.trans ?_, fun hgate => hiff.mpr ?_⟩
  · refine and_congr (forall₂_congr fun row hrow => ?_) (forall₂_congr fun row hrow => ?_)
    · rw [wireRoot_iff (hroots.attestations row hrow)]
    · rw [wireRoot_iff (hroots.blocks row hrow)]
  · have hwire : Tables.RootsIn WireRoot (Operation.runAll db _ operations) :=
      (Tables.rootsIn_empty pinned).runAll fun operation hop =>
        (hwritten operation hop).wireRoots (hgate operation hop)
    exact ⟨fun row hrow _ => hwire.attestations row hrow, fun row hrow _ => hwire.blocks row hrow⟩

/-- The gate signs a block, and the file has its root without the `0x`. -/
theorem gate_exports_bare_root :
    (exportInterchange ((SignPath.gate.request sampleDuty).run ⟨true, 0⟩ Tables.empty).2 zeroRoot).map
        (fun file => file.data.map fun record => record.signedBlocks.map (·.signingRoot)) =
        .ok [[some "1616161616161616161616161616161616161616161616161616161616161616"]] ∧
      isWireRoot "1616161616161616161616161616161616161616161616161616161616161616" = false := by
  decide +kernel

def peerExport : InterchangeFormat :=
  ⟨⟨"5", rootToHex zeroRoot⟩, [⟨pubkeyHex sampleDuty.pubkey, [⟨"5", some (rootHex sampleDuty.signingRoot)⟩], []⟩]⟩

theorem exported_roots_conform_iff_peer : peerExport.RootsIn WireRoot := by
  have hwritten : ∀ operation ∈ [SignPath.peer.request sampleDuty], Written operation :=
    fun operation hop => mem_singleton.mp hop ▸ .signed .peer sampleDuty
  refine (exported_roots_conform_iff ⟨true, 0⟩ none [SignPath.peer.request sampleDuty] hwritten rfl
    (by decide +kernel : exportInterchange _ zeroRoot = .ok peerExport)).2 fun operation hop duty => ?_
  rw [mem_singleton.mp hop]
  simp [SignPath.request]

end Rvc.SignerServer.Dvt
