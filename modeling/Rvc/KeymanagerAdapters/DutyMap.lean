import Mathlib.Data.Finset.Basic
import Rvc.KeymanagerAdapters.Admission

/-!
# The duty map beside the signer

Duties are matched against the pubkey map, and signed by the composite signer, which has keys loaded at boot, keys
added since, and the keys of HTTP and gRPC remote signers. Keystore adapter, remote-key adapter and the admission of
secrets each keep the two in step for the key they are asked about. None looks at the other side: the import of a
remote key does not ask whether the key is there already, and each removal takes the map entry away. So after
operations in any order the map has the keys of the signer exactly if no removal met a key that is held on another side
as well.
-/

namespace Rvc.KeymanagerAdapters

open Finset Bool

variable {K : Type} [DecidableEq K]

/-! ### The stores -/

structure CompositeSigner (K : Type) where
  boot : Finset K
  dynamicLocal : Finset K
  remote : Finset K
  grpcRemote : Finset K

namespace CompositeSigner

section

variable (signer : CompositeSigner K) (pubkey : K)

def hasLocalKey : Bool :=
  pubkey ∈ signer.dynamicLocal || pubkey ∈ signer.boot

def addLocalKey : CompositeSigner K :=
  { signer with dynamicLocal := insert pubkey signer.dynamicLocal }

def removeLocalKey : CompositeSigner K :=
  { signer with dynamicLocal := signer.dynamicLocal.erase pubkey, boot := signer.boot.erase pubkey }

def addRemoteKey : CompositeSigner K :=
  { signer with remote := insert pubkey signer.remote }

def removeRemoteKey : CompositeSigner K :=
  { signer with remote := signer.remote.erase pubkey }

def publicKeys : Finset K :=
  signer.boot ∪ signer.dynamicLocal ∪ signer.remote ∪ signer.grpcRemote

end

end CompositeSigner

structure KeySides (K : Type) where
  signer : CompositeSigner K
  pubkeyMap : Finset K
  trackedLocal : List K
  trackedRemote : List (K × String)
  denylist : Finset K
  rows : Finset K
  deleteRequests : Nat
  deletePerKey : K → Nat

inductive ImportRemoteKeyError where
  | invalidUrl (reason : String)
  | hostNotAllowed (host : String)
  | duplicate
  | backend (reason : String)
  deriving DecidableEq

inductive DeleteKeystoreError where
  | io (reason : String)
  deriving DecidableEq

structure Url where
  scheme : String
  host : Option String
  deriving DecidableEq

/-- What the adapters are built with: the parser of URLs, the hosts that are allowed, the constructor of remote signers,
and which bytes are a public key. -/
structure KeyEnv (K : Type) where
  parseUrl : String → Except String Url
  allowedHosts : Option (List String)
  remoteSigner : String → Except String Unit
  isPublicKey : K → Bool

namespace KeySides

/-! ### The operations -/

section

variable (s : KeySides K) (pubkey : K)

/-- `KeyAdmissionService::admit`, with nothing between its steps. -/
def admitKey (source : AdmissionSource) : AdmissionOutcome × KeySides K :=
  if source.enforceDenylist ∧ pubkey ∈ s.denylist then (.skippedDenylisted, s)
  else if pubkey ∈ s.pubkeyMap then (.alreadyPresent, s)
  else
    (.admitted (pubkey ∉ s.rows), { s with
      signer := s.signer.addLocalKey pubkey
      pubkeyMap := insert pubkey s.pubkeyMap
      rows := insert pubkey s.rows })

def persistHold (windowed : Bool) : KeySides K :=
  if windowed then { s with rows := insert pubkey s.rows } else s

def finishImport (pubkey : K) : AdmissionOutcome × KeySides K → Except ImportKeystoreError Unit × KeySides K
  | (.admitted _, after) =>
    (.ok (), { after with
      trackedLocal := after.trackedLocal ++ [pubkey]
      denylist := after.denylist.erase pubkey })
  | (.alreadyPresent, after) => (.error .duplicate, after)
  | (_, after) => (.error .io, after)

/-- `import_keystore` of a keystore that decrypts to the key. -/
def importKeystore (windowed : Bool) : Except ImportKeystoreError Unit × KeySides K :=
  if s.signer.hasLocalKey pubkey then (.error .duplicate, s)
  else if 0 < s.deletePerKey pubkey then (.error .deleteInProgress, s)
  else if pubkey ∈ s.pubkeyMap then (.error .duplicate, s)
  else finishImport pubkey ((s.persistHold pubkey windowed).admitKey pubkey (.keystore windowed))

def refusesDelete : Bool :=
  0 < s.deleteRequests && s.signer.hasLocalKey pubkey && s.deletePerKey pubkey = 0

def deleteKeystore : Except DeleteKeystoreError Bool × KeySides K :=
  if s.refusesDelete pubkey then
    (.error (.io "refusing to delete a key absent from the slashing-protection export"), s)
  else if s.signer.hasLocalKey pubkey = false then
    (.ok false, { s with denylist := insert pubkey s.denylist })
  else
    (.ok true, { s with
      denylist := insert pubkey s.denylist
      trackedLocal := s.trackedLocal.erase pubkey
      signer := s.signer.removeLocalKey pubkey
      pubkeyMap := s.pubkeyMap.erase pubkey })

/-- The check of the URL in `import_remote_key`: its scheme, and its host if there is an allowlist. -/
def checkRemoteUrl (env : KeyEnv K) (url : String) : Except ImportRemoteKeyError Unit :=
  match env.parseUrl url with
  | .error e => .error (.invalidUrl e)
  | .ok parsed =>
    if parsed.scheme ≠ "http" ∧ parsed.scheme ≠ "https" then
      .error (.invalidUrl s!"must be http:// or https://, got: {parsed.scheme}://")
    else if env.allowedHosts.any fun hosts => parsed.host.getD "" ∉ hosts then
      .error (.hostNotAllowed (parsed.host.getD ""))
    else .ok ()

def importRemoteKey (env : KeyEnv K) (s : KeySides K) (pubkey : K) (url : String) :
    Except ImportRemoteKeyError (KeySides K) :=
  match checkRemoteUrl env url with
  | .error e => .error e
  | .ok () =>
    if s.trackedRemote.any fun key => key.1 = pubkey then .error .duplicate
    else
      match env.remoteSigner url with
      | .error e => .error (.backend e)
      | .ok () =>
        .ok { s with
          signer := s.signer.addRemoteKey pubkey
          trackedRemote := s.trackedRemote ++ [(pubkey, url)]
          pubkeyMap := if env.isPublicKey pubkey then insert pubkey s.pubkeyMap else s.pubkeyMap }

def deleteRemoteKey : Bool × KeySides K :=
  if s.trackedRemote.any fun key => key.1 = pubkey then
    (true, { s with
      trackedRemote := s.trackedRemote.eraseP fun key => key.1 = pubkey
      signer := s.signer.removeRemoteKey pubkey
      pubkeyMap := s.pubkeyMap.erase pubkey })
  else (false, s)

def membershipForDelete (candidates : List K) : KeySides K :=
  { s with
    deleteRequests := s.deleteRequests + 1
    deletePerKey := fun pubkey =>
      if pubkey ∈ candidates ∧ s.signer.hasLocalKey pubkey then s.deletePerKey pubkey + 1 else s.deletePerKey pubkey }

def endDeleteExport (members : List K) : KeySides K :=
  { s with
    deleteRequests := s.deleteRequests - 1
    deletePerKey := fun pubkey => s.deletePerKey pubkey - members.count pubkey }

end

end KeySides

inductive KeyOp (K : Type) where
  | importKeystore (pubkey : K) (windowed : Bool)
  | deleteKeystore (pubkey : K)
  | importRemoteKey (pubkey : K) (url : String)
  | deleteRemoteKey (pubkey : K)
  | admitSecret (pubkey : K)
  | membershipForDelete (candidates : List K)
  | endDeleteExport (members : List K)

namespace KeySides

def step (env : KeyEnv K) (s : KeySides K) : KeyOp K → KeySides K
  | .importKeystore pubkey windowed => (s.importKeystore pubkey windowed).2
  | .deleteKeystore pubkey => (s.deleteKeystore pubkey).2
  | .importRemoteKey pubkey url => (s.importRemoteKey env pubkey url).toOption.getD s
  | .deleteRemoteKey pubkey => (s.deleteRemoteKey pubkey).2
  | .admitSecret pubkey => (s.admitKey pubkey .rawSecret).2
  | .membershipForDelete candidates => s.membershipForDelete candidates
  | .endDeleteExport members => s.endDeleteExport members

def run (env : KeyEnv K) (s : KeySides K) (ops : List (KeyOp K)) : KeySides K := ops.foldl (step env) s

def Agree (s : KeySides K) : Prop := s.pubkeyMap = s.signer.publicKeys

instance (s : KeySides K) : Decidable s.Agree := inferInstanceAs (Decidable (_ = _))

/-- A removal that goes ahead meets a key that only its own side holds. -/
def Apart (s : KeySides K) : KeyOp K → Prop
  | .deleteKeystore pubkey => s.refusesDelete pubkey = false → s.signer.hasLocalKey pubkey = true →
      pubkey ∉ s.signer.remote ∧ pubkey ∉ s.signer.grpcRemote
  | .deleteRemoteKey pubkey => (s.trackedRemote.any fun key => key.1 = pubkey) = true →
      s.signer.hasLocalKey pubkey = false ∧ pubkey ∉ s.signer.grpcRemote
  | _ => True

def AllApart (env : KeyEnv K) : KeySides K → List (KeyOp K) → Prop
  | _, [] => True
  | s, op :: ops => s.Apart op ∧ AllApart env (s.step env op) ops

end KeySides

def KeyOp.Valid (env : KeyEnv K) : KeyOp K → Prop
  | .importRemoteKey pubkey _ => env.isPublicKey pubkey = true
  | _ => True

/-! ### What each operation does to the keys of the signer -/

namespace CompositeSigner

variable {signer : CompositeSigner K} {pubkey other : K}

theorem mem_publicKeys : other ∈ signer.publicKeys ↔
      signer.hasLocalKey other = true ∨ other ∈ signer.remote ∨ other ∈ signer.grpcRemote := by
  simp only [publicKeys, hasLocalKey, mem_union, or_eq_true, decide_eq_true_eq]
  tauto

theorem hasLocalKey_removeLocalKey :
    (signer.removeLocalKey pubkey).hasLocalKey other = true ↔ other ≠ pubkey ∧ signer.hasLocalKey other = true := by
  simp only [hasLocalKey, removeLocalKey, mem_erase, or_eq_true, decide_eq_true_eq]
  tauto

theorem publicKeys_addLocalKey : (signer.addLocalKey pubkey).publicKeys = insert pubkey signer.publicKeys := by
  ext other
  simp only [publicKeys, addLocalKey, mem_union, mem_insert]
  tauto

theorem publicKeys_addRemoteKey : (signer.addRemoteKey pubkey).publicKeys = insert pubkey signer.publicKeys := by
  ext other
  simp only [publicKeys, addRemoteKey, mem_union, mem_insert]
  tauto

theorem publicKeys_removeLocalKey : signer.publicKeys.erase pubkey = (signer.removeLocalKey pubkey).publicKeys ↔
      pubkey ∉ signer.remote ∧ pubkey ∉ signer.grpcRemote := by
  constructor
  · intro heq
    have hnot : pubkey ∉ (signer.removeLocalKey pubkey).publicKeys := heq ▸ notMem_erase pubkey _
    rw [mem_publicKeys] at hnot
    exact ⟨fun h => hnot (.inr (.inl h)), fun h => hnot (.inr (.inr h))⟩
  · rintro ⟨hremote, hgrpc⟩
    ext other
    rw [mem_erase, mem_publicKeys, mem_publicKeys, hasLocalKey_removeLocalKey]
    show _ ↔ _ ∨ other ∈ signer.remote ∨ other ∈ signer.grpcRemote
    by_cases hsame : other = pubkey
    · subst hsame
      tauto
    · tauto

/-- The removal of a remote key removes it from the signer if it is neither local nor of a gRPC signer. -/
theorem publicKeys_removeRemoteKey : signer.publicKeys.erase pubkey = (signer.removeRemoteKey pubkey).publicKeys ↔
      signer.hasLocalKey pubkey = false ∧ pubkey ∉ signer.grpcRemote := by
  constructor
  · intro heq
    have hnot : pubkey ∉ (signer.removeRemoteKey pubkey).publicKeys := heq ▸ notMem_erase pubkey _
    rw [mem_publicKeys] at hnot
    exact ⟨not_eq_true _ ▸ fun h => hnot (.inl h), fun h => hnot (.inr (.inr h))⟩
  · rintro ⟨hlocal, hgrpc⟩
    ext other
    rw [mem_erase, mem_publicKeys, mem_publicKeys]
    show _ ↔ signer.hasLocalKey other = true ∨ other ∈ signer.remote.erase pubkey ∨ other ∈ signer.grpcRemote
    rw [mem_erase]
    by_cases hsame : other = pubkey
    · subst hsame
      simp [hlocal, hgrpc]
    · tauto

end CompositeSigner

/-! ### Agreement -/

namespace KeySides

variable {env : KeyEnv K} {s : KeySides K} {pubkey : K}

open CompositeSigner

theorem Agree.insert_local (h : s.Agree) : insert pubkey s.pubkeyMap = (s.signer.addLocalKey pubkey).publicKeys := by
  rw [publicKeys_addLocalKey, h]

open KeySides

theorem Agree.admitKey (h : s.Agree) (source : AdmissionSource) : (s.admitKey pubkey source).2.Agree := by
  unfold KeySides.admitKey
  split_ifs
  · exact h
  · exact h
  · exact h.insert_local

theorem Agree.persistHold (h : s.Agree) (windowed : Bool) : (s.persistHold pubkey windowed).Agree := by
  cases windowed <;> exact h

theorem Agree.finishImport {admitted : AdmissionOutcome × KeySides K} (h : admitted.2.Agree) :
    (finishImport pubkey admitted).2.Agree := by
  obtain ⟨outcome, after⟩ := admitted
  cases outcome <;> exact h

theorem Agree.importKeystore (h : s.Agree) (windowed : Bool) : (s.importKeystore pubkey windowed).2.Agree := by
  unfold KeySides.importKeystore
  split_ifs
  · exact h
  · exact h
  · exact h
  · exact ((h.persistHold windowed).admitKey _).finishImport

theorem Agree.importRemoteKey {url : String} {s' : KeySides K} (h : s.Agree) (hvalid : env.isPublicKey pubkey = true)
    (himport : s.importRemoteKey env pubkey url = .ok s') : s'.Agree := by
  unfold KeySides.importRemoteKey at himport
  split at himport
  · cases himport
  split_ifs at himport
  split at himport
  · cases himport
  cases himport
  show insert pubkey s.pubkeyMap = (s.signer.addRemoteKey pubkey).publicKeys
  rw [publicKeys_addRemoteKey, h]

theorem Agree.deleteKeystore_iff (h : s.Agree) :
    (s.deleteKeystore pubkey).2.Agree ↔ s.Apart (.deleteKeystore pubkey) := by
  unfold deleteKeystore
  split_ifs with hrefuses hlocal
  · exact ⟨fun _ hgoes => absurd (hgoes.symm.trans hrefuses) false_ne_true, fun _ => h⟩
  · exact ⟨fun _ _ hhas => absurd (hlocal.symm.trans hhas) false_ne_true, fun _ => h⟩
  · show s.pubkeyMap.erase pubkey = (s.signer.removeLocalKey pubkey).publicKeys ↔ _
    rw [h, publicKeys_removeLocalKey]
    exact ⟨fun hapart _ _ => hapart,
      fun hapart => hapart (not_eq_true _ ▸ hrefuses) (not_eq_false _ ▸ hlocal)⟩

/-- A removal of a remote key keeps agreement exactly if the key is neither local nor of a gRPC signer. -/
theorem Agree.deleteRemoteKey_iff (h : s.Agree) :
    (s.deleteRemoteKey pubkey).2.Agree ↔ s.Apart (.deleteRemoteKey pubkey) := by
  unfold deleteRemoteKey
  split_ifs with htracked
  · show s.pubkeyMap.erase pubkey = (s.signer.removeRemoteKey pubkey).publicKeys ↔ _
    rw [h, publicKeys_removeRemoteKey]
    exact ⟨fun hapart _ => hapart, fun hapart => hapart htracked⟩
  · exact ⟨fun _ hhas => absurd hhas htracked, fun _ => h⟩

theorem Agree.step_iff (h : s.Agree) {op : KeyOp K} (hvalid : op.Valid env) : (s.step env op).Agree ↔ s.Apart op := by
  cases op with
  | importKeystore pubkey windowed => exact iff_of_true (h.importKeystore windowed) trivial
  | deleteKeystore pubkey => exact h.deleteKeystore_iff
  | importRemoteKey pubkey url =>
    refine iff_of_true ?_ trivial
    show ((s.importRemoteKey env pubkey url).toOption.getD s).Agree
    cases himport : s.importRemoteKey env pubkey url with
    | error e => exact h
    | ok s' => exact h.importRemoteKey hvalid himport
  | deleteRemoteKey pubkey => exact h.deleteRemoteKey_iff
  | admitSecret pubkey => exact iff_of_true (h.admitKey .rawSecret) trivial
  | membershipForDelete candidates | endDeleteExport members => exact iff_of_true h trivial

/-- Along a run the map holds the keys of the signer, in each state, exactly if every removal meets a key that only its
own side holds. -/
theorem duty_map_agrees (env : KeyEnv K) (start : KeySides K) (hagree : start.Agree) (ops : List (KeyOp K))
    (hvalid : ∀ op ∈ ops, op.Valid env) :
    (∀ before after, ops = before ++ after → (start.run env before).Agree) ↔ AllApart env start ops := by
  induction ops generalizing start with
  | nil =>
    refine iff_of_true (fun before after heq => ?_) trivial
    obtain ⟨rfl, -⟩ := List.nil_eq_append_iff.mp heq
    exact hagree
  | cons op ops ih =>
    have hstep := hagree.step_iff (hvalid op (.head _))
    constructor
    · intro hall
      have hnext : (start.step env op).Agree := hall [op] ops rfl
      refine ⟨hstep.mp hnext, (ih _ hnext fun other hother => hvalid other (.tail _ hother)).mp ?_⟩
      exact fun before after heq => hall (op :: before) after (congrArg (op :: ·) heq)
    · rintro ⟨hapart, hrest⟩ before after heq
      cases before with
      | nil => exact hagree
      | cons first before =>
        obtain ⟨rfl, hops⟩ := List.cons_eq_cons.mp heq
        exact (ih _ (hstep.mpr hapart) fun other hother => hvalid other (.tail _ hother)).mpr hrest before after hops

def sampleEnv : KeyEnv Nat := ⟨fun _ => .ok ⟨"https", some "signer"⟩, none, fun _ => .ok (), fun _ => true⟩

def noKeys : KeySides Nat := ⟨⟨∅, ∅, ∅, ∅⟩, ∅, [], [], ∅, ∅, 0, fun _ => 0⟩

theorem duty_map_agrees_two_keys :
    (noKeys.run sampleEnv [.importKeystore 7 true, .importRemoteKey 8 "https://signer", .deleteRemoteKey 8]).Agree := by
  refine (duty_map_agrees sampleEnv noKeys (by decide +kernel)
    [.importKeystore 7 true, .importRemoteKey 8 "https://signer", .deleteRemoteKey 8] ?_).mpr ?_ _ [] rfl
  · simp [KeyOp.Valid, sampleEnv]
  · refine ⟨trivial, trivial, fun _ => ?_, trivial⟩
    decide +kernel

/-- A key that is imported as a keystore and as a remote key is signed for without the map after either removal. -/
theorem two_sided_key_loses_map_entry :
    let both : List (KeyOp Nat) := [.importKeystore 7 true, .importRemoteKey 7 "https://signer"]
    let remoteDeleted := noKeys.run sampleEnv (both ++ [.deleteRemoteKey 7])
    let keystoreDeleted := noKeys.run sampleEnv (both ++ [.deleteKeystore 7])
    noKeys.Agree ∧ (noKeys.run sampleEnv both).Agree ∧
      (7 ∈ remoteDeleted.signer.publicKeys ∧ 7 ∉ remoteDeleted.pubkeyMap) ∧
      7 ∈ keystoreDeleted.signer.publicKeys ∧ 7 ∉ keystoreDeleted.pubkeyMap := by
  decide +kernel

end KeySides

end Rvc.KeymanagerAdapters
