import Rvc.Signer.Safety
import Rvc.Slashing.Staged

/-!
# Partial signatures for peers

The slashable calls of `PeerSignerService`. A call is admitted, then stages its row, signs with the share of
this node and commits, all while it holds the connection. The calls for a block, for a block header and for
attestation data differ in the decoding of the request only, which is left out: a request has its message.

The rows of this path carry the root with `0x` in front. The key is normalised to the same text as that of a
task of the gate (`normalizePubkey_pubkeyHex`), the root is not (`rootHex_ne_encode`).
-/

namespace Rvc.SignerServer.Dvt

open Rvc.Lib Rvc.EthTypes Rvc.Slashing Rvc.Observability Rvc.Signer

/-! ### Admission -/

inductive Code where
  | unauthenticated
  | notFound
  | failedPrecondition
  | internal
  deriving DecidableEq

structure Status where
  code : Code
  message : String
  deriving DecidableEq

structure AllowedPeer where
  peerCn : String
  shareIndex : Nat
  deriving DecidableEq

/-- `ShareInfo`: the place of the share and the bytes of its scalar. -/
structure ShareInfo where
  index : Nat
  scalarBytes : Hex.Bytes 32

/-- `PeerSignerServiceImpl`. Whether the bytes of a scalar are a secret key, and what it signs, is up to the
library of the curve. -/
structure PeerSignerService where
  shares : Signer.PubkeyBytes → Option ShareInfo
  allowList : List AllowedPeer
  slashingDb : Option SlashingDb
  secretKey : Hex.Bytes 32 → Option (Root → List UInt8)

structure PartialSignRequest (M : Type) where
  opName : String
  peerCn : String
  requesterIndex : Nat
  pubkey : Signer.PubkeyBytes
  message : M
  gvr : Root

structure PartialSignResponse where
  partialSignature : List UInt8
  shareIndex : Nat

def PeerSignerService.requireDb (service : PeerSignerService) : Except Status SlashingDb :=
  match service.slashingDb with
  | some db => .ok db
  | none => .error ⟨.internal, "slashing protection database is not configured; " ++
      "restart with a valid --data-dir or --disable-slashing-protection + RVC_ALLOW_INSECURE=true"⟩

def lookupByCn (allowList : List AllowedPeer) (peerCn : String) : Option AllowedPeer :=
  allowList.find? fun peer => peer.peerCn = peerCn

def authenticatePeer (allowList : List AllowedPeer) (peerCn : String) (requesterIndex : Nat) :
    Except Status AllowedPeer :=
  match lookupByCn allowList peerCn with
  | none => .error ⟨.unauthenticated, "peer CN '" ++ peerCn ++ "' is not on the DVT allow-list"⟩
  | some allowed =>
      if allowed.shareIndex ≠ requesterIndex then
        .error ⟨.unauthenticated, "requester_index mismatch: allow-list assigns " ++ peerCn ++
          " share_index=" ++ toString allowed.shareIndex ++
          ", but request carries requester_index=" ++ toString requesterIndex⟩
      else
        .ok allowed

variable {M : Type}

/-- What a call does before it stages: the database, the peer and the share of the key. -/
def PeerSignerService.admit (service : PeerSignerService) (request : PartialSignRequest M) :
    Except Status (SlashingDb × ShareInfo) := do
  let db ← service.requireDb
  let _ ← authenticatePeer service.allowList request.peerCn request.requesterIndex
  match service.shares request.pubkey with
  | none => .error ⟨.notFound, "unknown public key"⟩
  | some share => .ok (db, share)

/-! ### Stage, sign, commit -/

def slashingErr (e : SlashingError) : Status :=
  match e with
  | .slashableBlock _ => ⟨.failedPrecondition, "slashing protection violation: " ++ e.display⟩
  | .slashableAttestation _ => ⟨.failedPrecondition, "slashing protection violation: " ++ e.display⟩
  | _ => ⟨.failedPrecondition, "slashing check failed: " ++ e.display⟩

def pubkeyHex (pubkey : Signer.PubkeyBytes) : String := "0x" ++ Hex.encode pubkey.1

def rootHex (root : Root) : String := "0x" ++ Hex.encode root.1

def PeerSignerService.partialSignWithShare (service : PeerSignerService) (signingRoot : Root)
    (share : ShareInfo) : Except Status (List UInt8) :=
  match service.secretKey share.scalarBytes with
  | none => .error ⟨.internal, "invalid share scalar bytes"⟩
  | some sign => .ok (sign signingRoot)

variable [SlashableMessage M]

/-- The call of `scoped.stage_block` or `scoped.stage_attestation`. -/
def PartialSignRequest.stage (request : PartialSignRequest M) (db : SlashingDb) (faults : StageFaults)
    (c : Conn Tables) : Except Status StagedRow × Conn Tables :=
  let (staged, c) := stageRow db faults c (pubkeyHex request.pubkey) (SlashableMessage.kind request.message)
    (some (rootHex (SlashableMessage.signingRoot request.message))) request.gvr
  (staged.mapError slashingErr, c)

/-- The commit of the staged row, and the response when it passes. -/
def commitSigned (faults : CommitFaults) (c : Conn Tables) (row : StagedRow) (response : PartialSignResponse) :
    Except Status PartialSignResponse × Conn Tables :=
  match row.commit faults c with
  | (.error e, c) => (.error ⟨.internal, "slashing DB commit failed: " ++ e.display⟩, c)
  | (.ok (), c) => (.ok response, c)

/-! ### The rows of this path -/

def PartialSignRequest.spec (request : PartialSignRequest M) : ReserveSpec :=
  .of (pubkeyHex request.pubkey) (SlashableMessage.kind request.message)
    (some (rootHex (SlashableMessage.signingRoot request.message))) request.gvr

def peerIdentityOf (pubkey : Signer.PubkeyBytes) (m : M) : RowIdentity :=
  ⟨normalizePubkey (pubkeyHex pubkey), SlashableMessage.kind m, some (rootHex (SlashableMessage.signingRoot m))⟩

theorem normalizePubkey_pubkeyHex (pubkey : Signer.PubkeyBytes) :
    normalizePubkey (pubkeyHex pubkey) = normalizePubkey (Hex.encode pubkey.1) := by
  have htext : pubkeyHex pubkey = normalizePubkey (Hex.encode pubkey.1) := by
    rw [normalizePubkey_encode, pubkeyHex, ← String.toList_inj]
    simp
  rw [htext, normalizePubkey_idem]

theorem rootHex_ne_encode (root : Root) (bytes : List UInt8) : rootHex root ≠ Hex.encode bytes := by
  intro heq
  have hmem : 'x' ∈ (Hex.encode bytes).toList := by
    rw [← heq, rootHex]
    simp
  obtain ⟨n, hn, hchar⟩ := Hex.mem_encode hmem
  exact (Hex.digitChar_ne_x n hn).1 hchar.symm

theorem rootHex_injective : Function.Injective rootHex := by
  intro root root' h
  have hlist := congrArg String.toList h
  simp only [rootHex, String.toList_append, List.append_cancel_left_eq, String.toList_inj] at hlist
  exact Subtype.ext (Hex.encode_injective hlist)

def PeerIdentity (M : Type) [SlashableMessage M] (id : RowIdentity) : Prop :=
  ∃ (pubkey : Signer.PubkeyBytes) (m : M), id = peerIdentityOf pubkey m

section

variable {db : SlashingDb} {t : Tables}

theorem PartialSignRequest.stage_cases (request : PartialSignRequest M) (db : SlashingDb)
    (faults : StageFaults) (t : Tables) : (∃ status, request.stage db faults ⟨t, none⟩ = (.error status, ⟨t, none⟩)) ∨
      ∃ reservation, SpecAccepted db t request.spec reservation ∧ request.stage db faults ⟨t, none⟩ =
          (.ok (request.spec.staged reservation.inserted), ⟨t, some t⟩) := by
  unfold PartialSignRequest.stage
  rcases stageRow_cases db faults t (pubkeyHex request.pubkey) (SlashableMessage.kind request.message)
    (some (rootHex (SlashableMessage.signingRoot request.message))) request.gvr with
    ⟨e, heq⟩ | ⟨reservation, hacc, heq⟩
  · exact .inl ⟨slashingErr e, by rw [heq]; rfl⟩
  · exact .inr ⟨reservation, hacc, by rw [heq]; rfl⟩

omit [SlashableMessage M] in
theorem commitSigned_cases {spec : ReserveSpec} {reservation : CommittedReservation}
    (h : SpecAccepted db t spec reservation) (faults : CommitFaults) (response : PartialSignResponse) :
    commitSigned faults ⟨t, some t⟩ (spec.staged reservation.inserted) response =
        (.ok response, ⟨t.afterReserve spec reservation, none⟩) ∨
      ∃ status, commitSigned faults ⟨t, some t⟩ (spec.staged reservation.inserted) response =
        (.error status, ⟨t, none⟩) := by
  unfold commitSigned
  rcases StagedRow.commit_cases h faults with heq | ⟨e, heq⟩
  · exact .inl (by rw [heq])
  · exact .inr ⟨_, by rw [heq]⟩

end

end Rvc.SignerServer.Dvt
