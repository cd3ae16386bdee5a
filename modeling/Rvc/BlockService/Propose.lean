import Rvc.Beacon.SszDeser
import Rvc.EthTypes.Fork
import Rvc.Lib.Traced
import Rvc.ValidatorStore.Store

/-!
# Proposing a block

`BlockService::propose_block`: sign the RANDAO reveal, ask the beacon node for a block, check it against the
duty, sign its header, publish it, and, when a Gloas response carries the execution payload envelope, sign
and publish that too. The four ways to sign and publish differ in how the response is read and what is
published; each is a `prepare…` that makes no call, followed by `signAndPublish`.
-/

namespace Rvc.BlockService

open Rvc.Lib Rvc.EthTypes Rvc.Beacon
open Rvc.EthTypes.SszHelpers (BeaconBlock BlindedBeaconBlock Bytes)

/-! ### Errors -/

inductive GloasError where
  | invalidBody (reason : String)
  | activeFieldsWidth (expected actual : Nat)
  deriving DecidableEq

inductive BlockServiceError where
  | signer (message : String)
  | beacon (message : String)
  | parse (message : String)
  | slotMismatch (requested got : Nat)
  | builderOnly (message : String)
  | builderFailure (message : String)
  | proposerIndexMismatch (expected got : Nat)
  | parentRootMismatch (expected got : Root)
  | unknownSszConsensusVersion (version : String)
  | blindedNotSupportedAtGloas (slot : Nat)
  | consensusVersionMismatch (expected got : String)
  | gloas (error : GloasError)
  | envelopeAfterPublish (message : String)
  | unsupported (operation : String)
  deriving DecidableEq

def GloasError.display : GloasError → String
  | .invalidBody reason => "invalid SSZ: " ++ reason
  | .activeFieldsWidth expected actual => s!"active_fields width: expected {expected}, actual {actual}"

def BlockServiceError.display : BlockServiceError → String
  | .signer message => "signer error: " ++ message
  | .beacon message => "beacon error: " ++ message
  | .parse message => "parse error: " ++ message
  | .slotMismatch requested got => s!"slot mismatch: requested {requested}, got {got}"
  | .builderOnly message => "builder-only mode: " ++ message
  | .builderFailure message => "builder failure: " ++ message
  | .proposerIndexMismatch expected got => s!"proposer_index mismatch: expected {expected}, got {got}"
  | .parentRootMismatch expected got =>
      "parent_root mismatch: expected " ++ rootToHex expected ++ ", got " ++ rootToHex got
  | .unknownSszConsensusVersion version =>
      "unrecognised consensus version for SSZ block format: " ++ version
  | .blindedNotSupportedAtGloas slot => s!"blinded block production is not supported at Gloas (slot {slot})"
  | .consensusVersionMismatch expected got =>
      "Eth-Consensus-Version " ++ got ++ " does not match slot fork " ++ expected
  | .gloas error => error.display
  | .envelopeAfterPublish message => "self-build envelope failed after block publish: " ++ message
  | .unsupported operation =>
      operation ++ " is unsupported; override it on any client used for a live JSON publish path"

def parseOfBeacon (message : String) : BlockServiceError := .parse ("Failed to parse response: " ++ message)

/-! ### Blocks and responses -/

inductive WireBody (J : Type) where
  | json (value : J)
  | ssz (bytes : Bytes)

inductive BlockContents where
  | blockAndBlobs (block : BeaconBlock) (kzgProofs blobs : List Bytes)
  | block (block : BeaconBlock)

def BlockContents.theBlock : BlockContents → BeaconBlock
  | .blockAndBlobs theBlock _ _ => theBlock
  | .block theBlock => theBlock

structure GloasBlockContents (J : Type) where
  block : BeaconBlock
  executionPayloadEnvelope : WireBody J
  kzgProofs : WireBody J
  blobs : WireBody J
  blockSsz : Option Bytes

inductive ProduceBlockV4Body (J : Type) where
  | beaconBlock (block : BeaconBlock) (blockSsz : Option Bytes)
  | blockContents (contents : GloasBlockContents J)

/-- `ProduceBlockResponse`, without `consensus_block_value`, which nothing here reads. -/
structure ProduceBlockResponse (J : Type) where
  data : J
  isBlinded : Bool
  consensusVersion : String
  executionPayloadValue : Option String
  isSsz : Bool
  sszBytes : Option Bytes
  payloadIncluded : Bool
  builderUrl : Option String

structure BeaconBlockHeaderFields where
  slot : UInt64
  proposerIndex : UInt64
  parentRoot : Root
  stateRoot : Root
  bodyRoot : Root
  bodySsz : Bytes
  isBlinded : Bool
  deriving DecidableEq

structure SignedBeaconBlock where
  message : BeaconBlock
  signature : Bytes

structure SignedBlindedBeaconBlock where
  message : BlindedBeaconBlock
  signature : Bytes

structure SignedBlockContentsJson (J : Type) where
  slot : UInt64
  proposerIndex : UInt64
  parentRoot : Root
  stateRoot : Root
  body : J
  signature : Bytes
  kzgProofs : List Bytes
  blobs : List Bytes

structure BuilderConfig where
  minBid : Nat
  builderBoostFactor : Nat
  builders : List String

/-- What the service calls and does not look into: merkleization, the typed body codecs, and JSON. -/
structure Primitives (J : Type) where
  electraBodyRoot : Bytes → Except String Root
  denebBodyRoot : Bytes → Except String Root
  blindedElectraBodyRoot : Bytes → Except String Root
  blindedDenebBodyRoot : Bytes → Except String Root
  leavesRoot : UInt64 → UInt64 → Root → Root → Root → Root
  gloasBodyRoot : Bytes → Except GloasError Root
  gloasBlockRoot : UInt64 → UInt64 → Root → Root → Bytes → Except GloasError Root
  gloasEnvelopeRoot : Bytes → Except GloasError Root
  blobKzgCommitments : Bytes → BodyForkLayout → Except String (List Bytes)
  encodeBody : Bytes → BodyForkLayout → Except String J
  parseFullBlock : J → String → Except String BlockContents
  parseBlindedBlock : J → Except String BlindedBeaconBlock
  get : J → String → Option J
  parseBeaconBlock : J → Except String BeaconBlock
  asString : J → Option String
  hexError : String → String
  signedEnvelope : J → String → J

inductive Call (J : Type) where
  | signRandaoReveal (epoch : Nat)
  | produceBlockV3 (slot : Nat) (randaoReveal : String) (graffiti : Option String) (boost : Nat)
  | produceBlockV4 (slot : Nat) (randaoReveal : String) (graffiti : Option String) (config : BuilderConfig)
  | signBlockHeader (header : BeaconBlockHeaderFields)
  | publishBlock (signed : SignedBeaconBlock) (consensusVersion : String) (builderUrl : Option String)
  | publishBlindedBlock (signed : SignedBlindedBeaconBlock) (consensusVersion : String)
  | publishBlockSsz (bytes : Bytes) (consensusVersion : String) (isBlinded : Bool) (builderUrl : Option String)
  | publishBlockContents (contents : SignedBlockContentsJson J) (consensusVersion : String) (builderUrl : Option String)
  | signExecutionPayloadEnvelopeRoot (objectRoot : Root) (slot : Nat)
  | publishExecutionPayloadEnvelope (signed blobs kzgProofs : WireBody J) (consensusVersion : String)

/-- The validator's settings, and what the signer and the beacon node answer. -/
structure Env (J : Type) where
  forkSchedule : ForkSchedule
  mode : ValidatorStore.BlockSelectionMode
  graffiti : Option (Hex.Bytes 32)
  builderBoostFactor : Nat
  minBid : Nat
  builderConfig : Option BuilderConfig
  circuitBreakerTripped : Bool
  signRandaoReveal : Except String (Hex.Bytes 96)
  produce : Except BlockServiceError (ProduceBlockResponse J)
  signBlockHeader : BeaconBlockHeaderFields → Except String (Hex.Bytes 96)
  signEnvelope : Root → Except String (Hex.Bytes 96)
  publish : Call J → Except BlockServiceError Unit

/-! ### Checks -/

structure BlockResponseValidator where
  expectedProposerIndex : Nat
  expectedParentRoot : Option Root
  expectedSlot : Nat

section

variable (v : BlockResponseValidator) (got : Nat)

def BlockResponseValidator.checkSlot : Except BlockServiceError Unit :=
  if got ≠ v.expectedSlot then .error (.slotMismatch v.expectedSlot got) else .ok ()

def BlockResponseValidator.checkProposerIndex : Except BlockServiceError Unit :=
  if got ≠ v.expectedProposerIndex then .error (.proposerIndexMismatch v.expectedProposerIndex got)
  else .ok ()

def BlockResponseValidator.checkParentRoot (got : Root) : Except BlockServiceError Unit :=
  match v.expectedParentRoot with
  | some expected => if got ≠ expected then .error (.parentRootMismatch expected got) else .ok ()
  | none => .ok ()

def BlockResponseValidator.validateFull (block : BeaconBlock) : Except BlockServiceError Unit := do
  v.checkSlot block.slot.toNat
  v.checkProposerIndex block.proposerIndex.toNat
  v.checkParentRoot block.parentRoot

def BlockResponseValidator.validateBlinded (block : BlindedBeaconBlock) : Except BlockServiceError Unit := do
  v.checkSlot block.slot.toNat
  v.checkProposerIndex block.proposerIndex.toNat
  v.checkParentRoot block.parentRoot

end

def slotsPerEpoch : Nat := 32

def rejectBlindedAtGloas (isBlinded : Bool) (consensusVersion : String) (slot : Nat)
    (schedule : ForkSchedule) : Except BlockServiceError Unit :=
  if !isBlinded then
    .ok ()
  else if .gloas ≤ ForkName.fromEpoch (slot / slotsPerEpoch) schedule ∨ consensusVersion = "gloas" then
    .error (.blindedNotSupportedAtGloas slot)
  else
    .ok ()

def rejectGloasVersionPreGloas (consensusVersion : String) (slotFork : ForkName) : Except BlockServiceError Unit :=
  if .gloas ≤ slotFork then
    .ok ()
  else
    match ForkName.fromStr consensusVersion with
    | some got =>
        if .gloas ≤ got then .error (.consensusVersionMismatch slotFork.name got.name) else .ok ()
    | none => .ok ()

def crossCheckConsensusVersion (got : String) (expected : ForkName) : Except BlockServiceError Unit :=
  if ForkName.fromStr got = some expected then .ok ()
  else .error (.consensusVersionMismatch expected.name got)

def sszBlockFormat (isBlinded : Bool) (consensusVersion : String) : Except BlockServiceError SszBlockFormat :=
  match ForkName.fromStr consensusVersion with
  | none => .error (.unknownSszConsensusVersion consensusVersion)
  | some fork =>
      if isBlinded then
        .ok .beaconBlock
      else
        match fork with
        | .deneb | .electra | .fulu => .ok .blockContents
        | .gloas => .ok .beaconBlock
        | .phase0 | .altair | .bellatrix | .capella => .ok .beaconBlock

section

variable {J : Type} (P : Primitives J)

/-! ### Headers and roots -/

def bodyTreeHashRoot (bytes : Bytes) : Except String Root :=
  match P.electraBodyRoot bytes with
  | .ok root => .ok root
  | .error electraError => (P.denebBodyRoot bytes).mapError fun _ => electraError

def blindedBodyTreeHashRoot (bytes : Bytes) : Except String Root :=
  match P.blindedElectraBodyRoot bytes with
  | .ok root => .ok root
  | .error electraError => (P.blindedDenebBodyRoot bytes).mapError fun _ => electraError

def headerFromFull (block : BeaconBlock) : Except BlockServiceError BeaconBlockHeaderFields := do
  let bodyRoot ← (bodyTreeHashRoot P block.body).mapError
    fun e => .parse ("invalid block body for body leaf: " ++ e)
  .ok ⟨block.slot, block.proposerIndex, block.parentRoot, block.stateRoot, bodyRoot, block.body, false⟩

def headerFromBlinded (block : BlindedBeaconBlock) : Except BlockServiceError BeaconBlockHeaderFields := do
  let bodyRoot ← (blindedBodyTreeHashRoot P block.body).mapError
    fun e => .parse ("invalid blinded block body for body leaf: " ++ e)
  .ok ⟨block.slot, block.proposerIndex, block.parentRoot, block.stateRoot, bodyRoot, block.body, true⟩

def computeBlockRoot (block : BeaconBlock) : Except BlockServiceError Root := do
  let bodyRoot ← (bodyTreeHashRoot P block.body).mapError
    fun e => .parse ("invalid block body for tree_hash_root: invalid SSZ block body: " ++ e)
  .ok (P.leavesRoot block.slot block.proposerIndex block.parentRoot block.stateRoot bodyRoot)

def computeBlindedBlockRoot (block : BlindedBeaconBlock) : Except BlockServiceError Root := do
  let bodyRoot ← (blindedBodyTreeHashRoot P block.body).mapError
    fun e => .parse ("invalid blinded block body for tree_hash_root: invalid SSZ block body: " ++ e)
  .ok (P.leavesRoot block.slot block.proposerIndex block.parentRoot block.stateRoot bodyRoot)

def BeaconBlockHeaderFields.objectRoot (header : BeaconBlockHeaderFields) : Root :=
  P.leavesRoot header.slot header.proposerIndex header.parentRoot header.stateRoot header.bodyRoot

def gloasHeaderAndRoot (block : BeaconBlock) : Except BlockServiceError (BeaconBlockHeaderFields × Root) := do
  let bodyRoot ← (P.gloasBodyRoot block.body).mapError .gloas
  let header : BeaconBlockHeaderFields :=
    ⟨block.slot, block.proposerIndex, block.parentRoot, block.stateRoot, bodyRoot, block.body, false⟩
  let blockRoot ← (P.gloasBlockRoot block.slot block.proposerIndex block.parentRoot block.stateRoot
    block.body).mapError .gloas
  if header.objectRoot P ≠ blockRoot then
    .error (.parse "Gloas island block root diverged from header object_root")
  else
    .ok (header, blockRoot)

def envelopeSszForIsland : WireBody J → Except BlockServiceError Bytes
  | .ssz bytes => .ok bytes
  | .json value =>
      match P.asString value with
      | some text =>
          let digits := match text.toList with
            | '0' :: 'x' :: rest => String.ofList rest
            | _ => text
          (Hex.decode digits).mapError fun _ =>
            .parse ("JSON execution payload envelope is not island SSZ: " ++ P.hexError digits)
      | none => .error (.parse "JSON execution payload envelope is not island SSZ")

def signedEnvelopeWire (unsigned : WireBody J) (signature : Bytes) : Except BlockServiceError (WireBody J) :=
  match unsigned with
  | .ssz ssz => do
      let framed ← (serializeSignedBeaconBlockSsz ssz signature).mapError parseOfBeacon
      .ok (.ssz framed)
  | .json message => .ok (.json (P.signedEnvelope message ("0x" ++ Hex.encode signature)))

/-! ### Reading a response -/

def jsonIsGloasBlockContents (data : J) : Bool :=
  (P.get data "block").isSome && (P.get data "execution_payload_envelope").isSome &&
    (P.get data "kzg_proofs").isSome && (P.get data "blobs").isSome

def contentsField (data : J) (field : String) : Except String J :=
  match P.get data field with
  | some value => .ok value
  | none => .error ("BlockContents missing '" ++ field ++ "'")

def parseGloasBlockContentsJson (data : J) : Except String (GloasBlockContents J) := do
  let block ← P.parseBeaconBlock (← contentsField P data "block")
  let envelope ← contentsField P data "execution_payload_envelope"
  let kzgProofs ← contentsField P data "kzg_proofs"
  let blobs ← contentsField P data "blobs"
  .ok ⟨block, .json envelope, .json kzgProofs, .json blobs, none⟩

section

variable (response : ProduceBlockResponse J)

def decodeV4Json : Except String (ProduceBlockV4Body J) :=
  match response.payloadIncluded, jsonIsGloasBlockContents P response.data with
  | true, true => (parseGloasBlockContentsJson P response.data).map .blockContents
  | false, false => (P.parseBeaconBlock response.data).map fun block => .beaconBlock block none
  | true, false =>
      .error "payload_included is true but decoded shape is BeaconBlock, not BlockContents"
  | false, true =>
      .error "payload_included is false but decoded shape is BlockContents, not BeaconBlock"

def decodeV4Ssz : Except String (ProduceBlockV4Body J) :=
  match response.sszBytes with
  | none => .error "SSZ produce response missing ssz_bytes"
  | some bytes =>
      if bytes.isEmpty then
        .error "received empty SSZ body from beacon node"
      else
        match response.payloadIncluded, looksLikeGloasBlockContents bytes with
        | true, true => (deserializeGloasBlockContents bytes).map fun parsed =>
            .blockContents ⟨parsed.block, .ssz parsed.envelopeSsz, .ssz parsed.kzgProofs, .ssz parsed.blobs,
              some parsed.blockSsz⟩
        | false, false => (deserializeBeaconBlockFromSsz bytes .beaconBlock).map fun parsed =>
            .beaconBlock parsed.1 (some (bytes.drop parsed.2))
        | true, false =>
            .error "payload_included is true but SSZ shape is BeaconBlock, not BlockContents"
        | false, true =>
            .error "payload_included is false but SSZ shape is BlockContents, not BeaconBlock"

def decodeV4Body : Except String (ProduceBlockV4Body J) :=
  if response.isSsz then decodeV4Ssz response else decodeV4Json P response

end

/-! ### Preparing a block -/

/-- A checked block: what is signed, and what is published with the signature. -/
structure Prepared (J : Type) where
  header : BeaconBlockHeaderFields
  blockRoot : Root
  isBlinded : Bool
  publication : Bytes → Except BlockServiceError (Call J)

def validated (validator : Option BlockResponseValidator)
    (check : BlockResponseValidator → Except BlockServiceError Unit) : Except BlockServiceError Unit :=
  match validator with
  | some v => check v
  | none => .ok ()

def checkSszSlot (got slot : Nat) : Except BlockServiceError Unit :=
  if got ≠ slot then .error (.parse s!"SSZ block slot mismatch: header has {got}, expected {slot}")
  else .ok ()

def checkBlockSlot (got slot : Nat) : Except BlockServiceError Unit :=
  if got ≠ slot then .error (.slotMismatch slot got) else .ok ()

/-- The commitments in a body must decode where its fork has a layout; they are only logged. -/
def checkCommitments (block : BeaconBlock) (consensusVersion : String) : Except BlockServiceError Unit :=
  match bodyForkLayout consensusVersion with
  | some layout => (P.blobKzgCommitments block.body layout).mapError BlockServiceError.parse |>.map fun _ => ()
  | none => .ok ()

/-- What `sign_and_publish_ssz` publishes: a block that came with blobs is framed alone and wrapped with them
again, any other fills the buffer. -/
def sszPublication (response : ProduceBlockResponse J) (sszBytes : Bytes)
    (contents : Option BlockContentsSsz) (signature : Bytes) : Except BlockServiceError (Call J) := do
  let signedSsz ← match contents with
    | some contents => do
        let signedBlock ← (serializeSignedBeaconBlockSsz contents.blockSsz signature).mapError parseOfBeacon
        .ok (serializeSignedBlockContentsSsz signedBlock contents.kzgProofs contents.blobs)
    | none => (serializeSignedBeaconBlockSsz sszBytes signature).mapError parseOfBeacon
  .ok (.publishBlockSsz signedSsz response.consensusVersion response.isBlinded response.builderUrl)

section

variable (sszBytes : Bytes) (format : SszBlockFormat)

def sszContents : Except BlockServiceError (Option BlockContentsSsz) :=
  if format = .blockContents then
    (deserializeBlockContentsSsz sszBytes format).mapError parseOfBeacon |>.map some
  else
    .ok none

def sszBlindedHeader (slot : Nat) (validator : Option BlockResponseValidator) :
    Except BlockServiceError (Root × BeaconBlockHeaderFields) := do
  let (block, _) ← (deserializeBlindedBeaconBlockFromSsz sszBytes format).mapError parseOfBeacon
  checkSszSlot block.slot.toNat slot
  validated validator (·.validateBlinded block)
  let blockRoot ← computeBlindedBlockRoot P block
  let header ← headerFromBlinded P block
  .ok (blockRoot, header)

/-- A block of an SSZ response that came with blobs, checked. Its commitments must decode. -/
def sszContentsHeader (contents : BlockContentsSsz) (consensusVersion : String) (slot : Nat)
    (validator : Option BlockResponseValidator) :
    Except BlockServiceError (Root × BeaconBlockHeaderFields) := do
  let block := contents.block
  checkSszSlot block.slot.toNat slot
  validated validator (·.validateFull block)
  checkCommitments P block consensusVersion
  let blockRoot ← computeBlockRoot P block
  let header ← headerFromFull P block
  .ok (blockRoot, header)

def sszBareHeader (slot : Nat) (validator : Option BlockResponseValidator) :
    Except BlockServiceError (Root × BeaconBlockHeaderFields) := do
  let (block, _) ← (deserializeBeaconBlockFromSsz sszBytes format).mapError parseOfBeacon
  checkSszSlot block.slot.toNat slot
  validated validator (·.validateFull block)
  let blockRoot ← computeBlockRoot P block
  let header ← headerFromFull P block
  .ok (blockRoot, header)

end

section

variable (response : ProduceBlockResponse J) (slot : Nat) (validator : Option BlockResponseValidator)

def prepareSsz : Except BlockServiceError (Prepared J) :=
  match response.sszBytes with
  | none => .error (.parse "SSZ response missing ssz_bytes")
  | some sszBytes => do
      let format ← sszBlockFormat response.isBlinded response.consensusVersion
      let contents ← sszContents sszBytes format
      let (blockRoot, header) ←
        if response.isBlinded then
          sszBlindedHeader P sszBytes format slot validator
        else
          match contents with
          | some contents => sszContentsHeader P contents response.consensusVersion slot validator
          | none => sszBareHeader P sszBytes format slot validator
      .ok ⟨header, blockRoot, response.isBlinded, sszPublication response sszBytes contents⟩

/-- The proof and commitment checks of `sign_and_publish_full`; a commitment count that differs from the
number of blobs is only logged. -/
def checkBlobs (contents : BlockContents) (consensusVersion : String) : Except BlockServiceError Unit :=
  match contents with
  | .block _ => .ok ()
  | .blockAndBlobs block kzgProofs blobs =>
      let proofCount := kzgProofs.length
      let blobCount := blobs.length
      match ForkName.fromStr consensusVersion with
      | none => .error (.parse (s!"kzg proof cardinality: unknown fork {consensusVersion} " ++
          s!"({proofCount} proofs, {blobCount} blobs)"))
      | some fork =>
          match expectedKzgProofCount fork blobCount with
          | .error e => .error (.parse (s!"kzg proof cardinality is not defined for fork " ++
              s!"{consensusVersion} ({proofCount} proofs, {blobCount} blobs): {e}"))
          | .ok expected =>
              if proofCount ≠ expected then
                .error (.parse (s!"kzg proof cardinality mismatch for fork {consensusVersion}: expected " ++
                  s!"{expected} proofs, got {proofCount} proofs for {blobCount} blobs"))
              else
                checkCommitments P block consensusVersion

def fullPublication (contents : BlockContents) (signature : Bytes) : Except BlockServiceError (Call J) :=
  match contents with
  | .blockAndBlobs block kzgProofs blobs =>
      match bodyForkLayout response.consensusVersion with
      | none => .error (.parse ("no JSON body layout for consensus version " ++ response.consensusVersion))
      | some layout => do
          let body ← (P.encodeBody block.body layout).mapError .parse
          .ok (.publishBlockContents
            ⟨block.slot, block.proposerIndex, block.parentRoot, block.stateRoot, body, signature, kzgProofs,
              blobs⟩ response.consensusVersion response.builderUrl)
  | .block block => .ok (.publishBlock ⟨block, signature⟩ response.consensusVersion response.builderUrl)

def prepareFull : Except BlockServiceError (Prepared J) := do
  let contents ← (P.parseFullBlock response.data response.consensusVersion).mapError .parse
  let block := contents.theBlock
  checkBlockSlot block.slot.toNat slot
  validated validator (·.validateFull block)
  checkBlobs P contents response.consensusVersion
  let blockRoot ← computeBlockRoot P block
  let header ← headerFromFull P block
  .ok ⟨header, blockRoot, false, fullPublication P response contents⟩

end

def prepareBlinded (schedule : ForkSchedule) (response : ProduceBlockResponse J) (slot : Nat)
    (validator : Option BlockResponseValidator) : Except BlockServiceError (Prepared J) := do
  rejectBlindedAtGloas true response.consensusVersion slot schedule
  let block ← (P.parseBlindedBlock response.data).mapError .parse
  checkBlockSlot block.slot.toNat slot
  validated validator (·.validateBlinded block)
  let blockRoot ← computeBlindedBlockRoot P block
  let header ← headerFromBlinded P block
  .ok ⟨header, blockRoot, true, fun signature =>
    .ok (.publishBlindedBlock ⟨block, signature⟩ response.consensusVersion)⟩

/-- The envelope of a Gloas response, with its blobs, its proofs and its root. -/
structure PreparedEnvelope (J : Type) where
  body : WireBody J
  blobs : WireBody J
  kzgProofs : WireBody J
  objectRoot : Root

def v4Publication (fork : ForkName) (builderUrl : Option String) (block : BeaconBlock)
    (blockSsz : Option Bytes) (signature : Bytes) : Except BlockServiceError (Call J) :=
  match blockSsz with
  | some blockSsz => do
      let signedSsz ← (serializeSignedBeaconBlockSsz blockSsz signature).mapError parseOfBeacon
      .ok (.publishBlockSsz signedSsz fork.name false builderUrl)
  | none => .ok (.publishBlock ⟨block, signature⟩ fork.name builderUrl)

def ProduceBlockV4Body.parts :
    ProduceBlockV4Body J → BeaconBlock × Option Bytes × Option (WireBody J × WireBody J × WireBody J)
  | .beaconBlock block blockSsz => (block, blockSsz, none)
  | .blockContents contents => (contents.block, contents.blockSsz,
      some (contents.executionPayloadEnvelope, contents.blobs, contents.kzgProofs))

/-- A block that comes with its envelope was not built by a builder. -/
def rejectBuilderUrl (hasEnvelope : Bool) (builderUrl : Option String) : Except BlockServiceError Unit :=
  if hasEnvelope ∧ builderUrl.isSome then .error (.parse "BlockContents must not include Eth-Builder-Url")
  else .ok ()

def prepareEnvelope (envelope : Option (WireBody J × WireBody J × WireBody J)) :
    Except BlockServiceError (Option (PreparedEnvelope J)) :=
  match envelope with
  | some (body, blobs, kzgProofs) => do
      let envelopeSsz ← envelopeSszForIsland P body
      let objectRoot ← (P.gloasEnvelopeRoot envelopeSsz).mapError .gloas
      .ok (some ⟨body, blobs, kzgProofs, objectRoot⟩)
  | none => .ok none

def prepareV4 (response : ProduceBlockResponse J) (slot : Nat)
    (validator : Option BlockResponseValidator) (fork : ForkName) :
    Except BlockServiceError (Prepared J × Option (PreparedEnvelope J)) := do
  crossCheckConsensusVersion response.consensusVersion fork
  let decoded ← (decodeV4Body P response).mapError .parse
  let (block, blockSsz, envelope) := decoded.parts
  rejectBuilderUrl envelope.isSome response.builderUrl
  checkBlockSlot block.slot.toNat slot
  validated validator (·.validateFull block)
  let prepared ← prepareEnvelope P envelope
  let (header, blockRoot) ← gloasHeaderAndRoot P block
  let builderUrl := if envelope.isSome then none else response.builderUrl
  .ok (⟨header, blockRoot, false, v4Publication fork builderUrl block blockSsz⟩, prepared)

/-! ### The service -/

abbrev Service (J : Type) := Traced (Call J) BlockServiceError

variable (env : Env J)

def signAndPublish (prepared : Prepared J) : Service J (Root × Bool) := do
  let signature ← .call (.signBlockHeader prepared.header) ((env.signBlockHeader prepared.header).mapError .signer)
  let publication ← .ofExcept (prepared.publication signature.1)
  .call publication (env.publish publication)
  pure (prepared.blockRoot, prepared.isBlinded)

section

variable (response : ProduceBlockResponse J)

def signAndPublishEnvelope (envelope : PreparedEnvelope J) (slot : Nat) (fork : ForkName) : Service J Unit := do
  .ofExcept (if !response.payloadIncluded then
    .error (.parse "envelope publish requires payload_included on the signed produce response")
  else
    .ok ())
  let signature ← .call (.signExecutionPayloadEnvelopeRoot envelope.objectRoot slot)
    ((env.signEnvelope envelope.objectRoot).mapError .signer)
  let signed ← .ofExcept (signedEnvelopeWire P envelope.body signature.1)
  let publication := .publishExecutionPayloadEnvelope signed envelope.blobs envelope.kzgProofs fork.name
  .call publication (env.publish publication)

def signAndPublishV4 (slot : Nat)
    (validator : Option BlockResponseValidator) (fork : ForkName) : Service J (Root × Bool) := do
  let (prepared, envelope) ← .ofExcept (prepareV4 P response slot validator fork)
  let result ← signAndPublish env prepared
  match envelope with
  | some envelope =>
      (signAndPublishEnvelope P env response envelope slot fork).mapError
        fun e => .envelopeAfterPublish e.display
  | none => pure ()
  pure result

def signAndPublishPreGloas (slot : Nat)
    (validator : Option BlockResponseValidator) (fork : ForkName) : Service J (Root × Bool) := do
  .ofExcept (rejectBlindedAtGloas response.isBlinded response.consensusVersion slot env.forkSchedule)
  .ofExcept (rejectGloasVersionPreGloas response.consensusVersion fork)
  let prepared ← .ofExcept (if response.isSsz then
      prepareSsz P response slot validator
    else if response.isBlinded then
      prepareBlinded P env.forkSchedule response slot validator
    else
      prepareFull P response slot validator)
  signAndPublish env prepared

end

def boostFor : Except BlockServiceError Nat :=
  match env.mode with
  | .executionOnly => .ok 0
  | .maxProfit => .ok (if env.circuitBreakerTripped then 0 else env.builderBoostFactor)
  | .builderAlways => .ok (if env.circuitBreakerTripped then 0 else 2 ^ 64 - 1)
  | .builderOnly =>
      if env.circuitBreakerTripped then
        .error (.builderOnly "circuit breaker tripped — proposal missed")
      else
        .ok (2 ^ 64 - 1)

def v4BuilderConfig (boost : Nat) : BuilderConfig :=
  { (match env.builderConfig with
      | some config => config
      | none => ⟨env.minBid, boost, []⟩) with
    builderBoostFactor := boost
    minBid := env.minBid }

def tagProduceError (boost : Nat) (e : BlockServiceError) : BlockServiceError :=
  if env.mode = .builderOnly then
    .builderOnly ("builder block production failed: " ++ e.display)
  else if 0 < boost then
    .builderFailure e.display
  else
    e

structure BlockProposalResult where
  slot : Nat
  blockRoot : Root
  isBlinded : Bool
  consensusVersion : String
  valueWei : Option String

def proposeBlockImpl (slot : Nat) (validator : Option BlockResponseValidator) : Service J BlockProposalResult := do
  let epoch := slot / slotsPerEpoch
  let fork := ForkName.fromEpoch epoch env.forkSchedule
  let randao ← .call (.signRandaoReveal epoch) (env.signRandaoReveal.mapError .signer)
  let randaoHex := "0x" ++ Hex.encode randao.1
  let graffitiHex := env.graffiti.map fun g => "0x" ++ Hex.encode g.1
  let boost ← .ofExcept (boostFor env)
  let response ← .call (if .gloas ≤ fork then .produceBlockV4 slot randaoHex graffitiHex (v4BuilderConfig env boost)
    else .produceBlockV3 slot randaoHex graffitiHex boost)
    (env.produce.mapError (tagProduceError env boost))
  let (blockRoot, isBlinded) ←
    if .gloas ≤ fork then signAndPublishV4 P env response slot validator fork
    else signAndPublishPreGloas P env response slot validator fork
  pure ⟨slot, blockRoot, isBlinded, response.consensusVersion, response.executionPayloadValue⟩

def proposeBlock (slot expectedProposerIndex : Nat) (expectedParentRoot : Option Root) :
    Service J BlockProposalResult :=
  proposeBlockImpl P env slot (some ⟨expectedProposerIndex, expectedParentRoot, slot⟩)

end

end Rvc.BlockService
