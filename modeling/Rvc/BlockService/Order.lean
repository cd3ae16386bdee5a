import Rvc.BlockService.Propose

/-!
# What a proposal signs and publishes, and in which order

`Allowed` says of a call what must hold and which calls must have come before it. Every call of
`propose_block` is allowed (`proposeBlock_allowed`). Each way to sign and publish comes down to its prepared
block being checked (`Prepared.Checked`); the order is that of `signAndPublish`, which they share.
-/

namespace Rvc.BlockService

open Rvc.Lib Rvc.Lib.Traced Rvc.EthTypes Rvc.Beacon Call List
open Rvc.EthTypes.SszHelpers (BeaconBlock BlindedBeaconBlock Bytes u32ToLeBytes u64ToLeBytes)

structure Duty where
  slot : Nat
  proposerIndex : Nat
  parentRoot : Option Root

def Duty.fork (duty : Duty) (schedule : ForkSchedule) : ForkName :=
  ForkName.fromEpoch (duty.slot / slotsPerEpoch) schedule

def Duty.validator (duty : Duty) : BlockResponseValidator :=
  ⟨duty.proposerIndex, duty.parentRoot, duty.slot⟩

namespace BeaconBlockHeaderFields

def block (header : BeaconBlockHeaderFields) : BeaconBlock :=
  ⟨header.slot, header.proposerIndex, header.parentRoot, header.stateRoot, header.bodySsz⟩

def blindedBlock (header : BeaconBlockHeaderFields) : BlindedBeaconBlock :=
  ⟨header.slot, header.proposerIndex, header.parentRoot, header.stateRoot, header.bodySsz⟩

structure Answers (header : BeaconBlockHeaderFields) (duty : Duty) : Prop where
  slot : header.slot.toNat = duty.slot
  proposerIndex : header.proposerIndex.toNat = duty.proposerIndex
  parentRoot : ∀ root, duty.parentRoot = some root → header.parentRoot = root

def HashesBody {J : Type} (P : Primitives J) (fork : ForkName) (header : BeaconBlockHeaderFields) : Prop :=
  if .gloas ≤ fork then
    P.gloasBodyRoot header.bodySsz = .ok header.bodyRoot
  else if header.isBlinded then
    blindedBodyTreeHashRoot P header.bodySsz = .ok header.bodyRoot
  else
    bodyTreeHashRoot P header.bodySsz = .ok header.bodyRoot

end BeaconBlockHeaderFields

namespace Call

variable {J : Type}

def isBlockPublish : Call J → Bool
  | publishBlock .. | publishBlindedBlock .. | publishBlockSsz .. | publishBlockContents .. => true
  | _ => false

def isRequest : Call J → Bool
  | signRandaoReveal .. | produceBlockV3 .. | produceBlockV4 .. => true
  | _ => false

theorem isBlockPublish_of_isRequest {call : Call J} (h : call.isRequest = true) : call.isBlockPublish = false := by
  cases call with
  | signRandaoReveal | produceBlockV3 | produceBlockV4 => rfl
  | _ => cases h

/-- The call publishes the block of the header under the signature. On the SSZ wire the published bytes
frame bytes that read as this block; in JSON contents the body is the encoding of its body. -/
def Carries (P : Primitives J) (header : BeaconBlockHeaderFields) (signature : Bytes) : Call J → Prop
  | publishBlock signed _ _ =>
      header.isBlinded = false ∧ signed.message = header.block ∧ signed.signature = signature
  | publishBlindedBlock signed _ =>
      header.isBlinded = true ∧ signed.message = header.blindedBlock ∧ signed.signature = signature
  | publishBlockSsz bytes _ isBlinded _ =>
      header.isBlinded = isBlinded ∧ ∃ blockSsz signedBlock,
        deserializeBlockFields blockSsz 0 blockSsz.length = .ok header.block ∧
        serializeSignedBeaconBlockSsz blockSsz signature = .ok signedBlock ∧
        (bytes = signedBlock ∨
          ∃ kzgProofs blobs, bytes = serializeSignedBlockContentsSsz signedBlock kzgProofs blobs)
  | publishBlockContents contents consensusVersion _ =>
      header.isBlinded = false ∧ contents.slot = header.slot ∧
        contents.proposerIndex = header.proposerIndex ∧ contents.parentRoot = header.parentRoot ∧
        contents.stateRoot = header.stateRoot ∧ contents.signature = signature ∧
        ∃ layout, bodyForkLayout consensusVersion = some layout ∧
          P.encodeBody header.bodySsz layout = .ok contents.body
  | _ => False

end Call

section

variable {J : Type} (P : Primitives J) (env : Env J) (duty : Duty)

def EnvelopeRootOf (response : ProduceBlockResponse J) (root : Root) : Prop :=
  ∃ contents envelopeSsz, decodeV4Body P response = .ok (.blockContents contents) ∧
    envelopeSszForIsland P contents.executionPayloadEnvelope = .ok envelopeSsz ∧
    P.gloasEnvelopeRoot envelopeSsz = .ok root

structure Allowed (past : List (Call J)) (call : Call J) : Prop where
  signHeader : ∀ header, call = .signBlockHeader header →
    (∀ other, .signBlockHeader other ∉ past) ∧ header.Answers duty ∧
      header.HashesBody P (duty.fork env.forkSchedule) ∧
      (.gloas ≤ duty.fork env.forkSchedule → header.isBlinded = false)
  publish : call.isBlockPublish = true →
    (∀ other ∈ past, other.isBlockPublish = false) ∧
      ∃ header signature, .signBlockHeader header ∈ past ∧
        env.signBlockHeader header = .ok signature ∧ call.Carries P header signature.1
  signEnvelope : ∀ root slot, call = .signExecutionPayloadEnvelopeRoot root slot →
    (∀ root' slot', .signExecutionPayloadEnvelopeRoot root' slot' ∉ past) ∧
      .gloas ≤ duty.fork env.forkSchedule ∧
      (∃ published ∈ past, published.isBlockPublish = true ∧ env.publish published = .ok ()) ∧
      ∃ response, env.produce = .ok response ∧ EnvelopeRootOf P response root

/-! ### Checked blocks -/

/-- A prepared block whose header may be signed, and that is published as that header's block. -/
structure Prepared.Checked (prepared : Prepared J) : Prop where
  answers : prepared.header.Answers duty
  hashesBody : prepared.header.HashesBody P (duty.fork env.forkSchedule)
  notBlinded : .gloas ≤ duty.fork env.forkSchedule → prepared.header.isBlinded = false
  publication : ∀ signature call, prepared.publication signature = .ok call →
    call.isBlockPublish = true ∧ call.Carries P prepared.header signature

variable {P env duty} {header : BeaconBlockHeaderFields} {block : BeaconBlock}

theorem validateFull_ok (h : duty.validator.validateFull block = .ok ())
    (hheader : header.block = block) : header.Answers duty := by
  subst hheader
  obtain ⟨_, hslot, h⟩ := bind_eq_ok.mp h
  obtain ⟨_, hindex, hparent⟩ := bind_eq_ok.mp h
  refine ⟨?_, ?_, fun root hroot => ?_⟩
  · unfold BlockResponseValidator.checkSlot at hslot
    split at hslot
    · cases hslot
    next heq => exact not_not.mp heq
  · unfold BlockResponseValidator.checkProposerIndex at hindex
    split at hindex
    · cases hindex
    next heq => exact not_not.mp heq
  · unfold BlockResponseValidator.checkParentRoot at hparent
    rw [show duty.validator.expectedParentRoot = some root from hroot] at hparent
    dsimp only at hparent
    split at hparent
    · cases hparent
    next heq => exact not_not.mp heq

theorem validateBlinded_ok {block : BlindedBeaconBlock} (h : duty.validator.validateBlinded block = .ok ())
    (hheader : header.blindedBlock = block) : header.Answers duty := by
  subst hheader
  have hfull : duty.validator.validateFull header.block = .ok () := h
  exact validateFull_ok hfull rfl

theorem headerFromFull_ok (h : headerFromFull P block = .ok header) : header.block = block ∧ header.isBlinded = false ∧
      bodyTreeHashRoot P header.bodySsz = .ok header.bodyRoot := by
  obtain ⟨bodyRoot, hroot, hheader⟩ := bind_eq_ok.mp h
  cases hheader
  exact ⟨rfl, rfl, mapError_eq_ok.mp hroot⟩

theorem headerFromBlinded_ok {block : BlindedBeaconBlock} (h : headerFromBlinded P block = .ok header) :
    header.blindedBlock = block ∧ header.isBlinded = true ∧
      blindedBodyTreeHashRoot P header.bodySsz = .ok header.bodyRoot := by
  obtain ⟨bodyRoot, hroot, hheader⟩ := bind_eq_ok.mp h
  cases hheader
  exact ⟨rfl, rfl, mapError_eq_ok.mp hroot⟩

theorem hashesBody_full {fork : ForkName} (hfork : ¬ .gloas ≤ fork) (hb : header.isBlinded = false)
    (hroot : bodyTreeHashRoot P header.bodySsz = .ok header.bodyRoot) : header.HashesBody P fork := by
  rwa [BeaconBlockHeaderFields.HashesBody, if_neg hfork, if_neg (by simp [hb])]

theorem hashesBody_blinded {fork : ForkName} (hfork : ¬ .gloas ≤ fork) (hb : header.isBlinded = true)
    (hroot : blindedBodyTreeHashRoot P header.bodySsz = .ok header.bodyRoot) :
    header.HashesBody P fork := by
  rwa [BeaconBlockHeaderFields.HashesBody, if_neg hfork, if_pos hb]

variable {blockRoot : Root}

theorem gloasHeaderAndRoot_ok (h : gloasHeaderAndRoot P block = .ok (header, blockRoot)) :
    header.block = block ∧ header.isBlinded = false ∧
      P.gloasBodyRoot header.bodySsz = .ok header.bodyRoot := by
  obtain ⟨bodyRoot, hroot, h⟩ := bind_eq_ok.mp h
  obtain ⟨root, -, h⟩ := bind_eq_ok.mp h
  split at h
  · cases h
  cases h
  exact ⟨rfl, rfl, mapError_eq_ok.mp hroot⟩

variable {format : SszBlockFormat} {sszBytes : Bytes} {signature : Bytes}

theorem sszPublication_none {response : ProduceBlockResponse J} {call : Call J}
    (h : sszPublication response sszBytes none signature = .ok call) (hblinded : header.isBlinded = response.isBlinded)
    (hread : deserializeBlockFields sszBytes 0 sszBytes.length = .ok header.block) :
    call.isBlockPublish = true ∧ call.Carries P header signature := by
  obtain ⟨signed, hsigned, h⟩ := bind_eq_ok.mp h
  cases h
  exact ⟨rfl, hblinded, sszBytes, signed, hread, mapError_eq_ok.mp hsigned, .inl rfl⟩

theorem sszPublication_some {response : ProduceBlockResponse J} {call : Call J}
    {contents : BlockContentsSsz} (h : sszPublication response sszBytes (some contents) signature = .ok call)
    (hblinded : header.isBlinded = response.isBlinded)
    (hread : deserializeBlockFields contents.blockSsz 0 contents.blockSsz.length = .ok header.block) :
    call.isBlockPublish = true ∧ call.Carries P header signature := by
  obtain ⟨signed, hsigned, h⟩ := bind_eq_ok.mp h
  cases h
  exact ⟨rfl, hblinded, contents.blockSsz, signed, hread, mapError_eq_ok.mp hsigned, .inr ⟨_, _, rfl⟩⟩

theorem sszBlockFormat_blinded {consensusVersion : String}
    (h : sszBlockFormat true consensusVersion = .ok format) : format = .beaconBlock := by
  unfold sszBlockFormat at h
  split at h
  · cases h
  · exact (Except.ok.inj h).symm

variable {response : ProduceBlockResponse J} {prepared : Prepared J}

section

variable (P : Primitives J) (sszBytes : Bytes) (format : SszBlockFormat)
  (validator : Option BlockResponseValidator) (header : BeaconBlockHeaderFields)

/-- What an SSZ response is read as: a blinded block, a bare block, or a block with its blobs. The block is validated
and has the header. -/
inductive SszRead :
    Bool → Option BlockContentsSsz → Prop where
  | blinded {block : BlindedBeaconBlock} {offset : Nat} (hformat : format = .beaconBlock)
      (hblock : deserializeBlindedBeaconBlockFromSsz sszBytes format = .ok (block, offset))
      (hvalid : validated validator (·.validateBlinded block) = .ok ())
      (hheader : headerFromBlinded P block = .ok header) : SszRead true none
  | bare {block : BeaconBlock} {offset : Nat} (hformat : format = .beaconBlock)
      (hblock : deserializeBeaconBlockFromSsz sszBytes format = .ok (block, offset))
      (hvalid : validated validator (·.validateFull block) = .ok ())
      (hheader : headerFromFull P block = .ok header) : SszRead false none
  | contents {c : BlockContentsSsz} (hblock : deserializeBlockContentsSsz sszBytes format = .ok c)
      (hvalid : validated validator (·.validateFull c.block) = .ok ())
      (hheader : headerFromFull P c.block = .ok header) : SszRead false (some c)

end

theorem prepareSsz_read {slot : Nat} {validator : Option BlockResponseValidator}
    (h : prepareSsz P response slot validator = .ok prepared) :
    ∃ sszBytes format contents, response.sszBytes = some sszBytes ∧
      sszBlockFormat response.isBlinded response.consensusVersion = .ok format ∧
      sszContents sszBytes format = .ok contents ∧ prepared.publication = sszPublication response sszBytes contents ∧
      SszRead P sszBytes format validator prepared.header response.isBlinded contents := by
  unfold prepareSsz at h
  split at h
  · cases h
  next sszBytes hbytes =>
  obtain ⟨format, hformat, h⟩ := bind_eq_ok.mp h
  obtain ⟨contents, hcontents, h⟩ := bind_eq_ok.mp h
  refine ⟨sszBytes, format, contents, hbytes, hformat, hcontents, ?_⟩
  split at h
  next hblinded =>
    rw [hblinded] at hformat ⊢
    obtain rfl := sszBlockFormat_blinded hformat
    cases hcontents
    obtain ⟨⟨blockRoot, header⟩, hread, h⟩ := bind_eq_ok.mp h
    cases h
    obtain ⟨⟨block, offset⟩, hblock, hread⟩ := bind_eq_ok.mp hread
    simp only [bind_eq_ok] at hread
    obtain ⟨_, -, _, hvalid, _, -, _, hheader, hread⟩ := hread
    cases hread
    exact ⟨rfl, .blinded rfl (mapError_eq_ok.mp hblock) hvalid hheader⟩
  next hfull =>
    rw [Bool.eq_false_iff.mpr hfull]
    cases format with
    | beaconBlock =>
      cases hcontents
      obtain ⟨⟨blockRoot, header⟩, hread, h⟩ := bind_eq_ok.mp h
      cases h
      obtain ⟨⟨block, offset⟩, hblock, hread⟩ := bind_eq_ok.mp hread
      simp only [bind_eq_ok] at hread
      obtain ⟨_, -, _, hvalid, _, -, _, hheader, hread⟩ := hread
      cases hread
      exact ⟨rfl, .bare rfl (mapError_eq_ok.mp hblock) hvalid hheader⟩
    | blockContents =>
      obtain ⟨c, hc, rfl⟩ := map_eq_ok.mp hcontents
      obtain ⟨⟨blockRoot, header⟩, hread, h⟩ := bind_eq_ok.mp h
      cases h
      simp only [sszContentsHeader, bind_eq_ok] at hread
      obtain ⟨_, -, _, hvalid, _, -, _, -, _, hheader, hread⟩ := hread
      cases hread
      exact ⟨rfl, .contents (mapError_eq_ok.mp hc) hvalid hheader⟩

theorem prepareSsz_checked (hfork : ¬ .gloas ≤ duty.fork env.forkSchedule)
    (h : prepareSsz P response duty.slot (some duty.validator) = .ok prepared) :
    prepared.Checked P env duty := by
  obtain ⟨sszBytes, format, contents, -, -, -, hpublication, hread⟩ := prepareSsz_read h
  generalize hisBlinded : response.isBlinded = isBlinded at hread
  cases hread with
  | blinded hformat hblock hvalid hheader =>
    obtain ⟨heq, hb, hroot⟩ := headerFromBlinded_ok hheader
    subst hformat
    refine ⟨validateBlinded_ok hvalid heq, hashesBody_blinded hfork hb hroot, fun hg => absurd hg hfork, ?_⟩
    intro signature call hcall
    rw [hpublication] at hcall
    have hfull := (deserializeBeaconBlockFromSsz_block (deserializeBlindedBeaconBlockFromSsz_full hblock)).2
    rw [← heq] at hfull
    exact sszPublication_none hcall (hb.trans hisBlinded.symm) hfull
  | bare hformat hblock hvalid hheader =>
    obtain ⟨heq, hb, hroot⟩ := headerFromFull_ok hheader
    subst hformat
    refine ⟨validateFull_ok hvalid heq, hashesBody_full hfork hb hroot, fun hg => absurd hg hfork, ?_⟩
    intro signature call hcall
    rw [hpublication] at hcall
    exact sszPublication_none hcall (hb.trans hisBlinded.symm) (heq ▸ (deserializeBeaconBlockFromSsz_block hblock).2)
  | contents hblock hvalid hheader =>
    obtain ⟨heq, hb, hroot⟩ := headerFromFull_ok hheader
    refine ⟨validateFull_ok hvalid heq, hashesBody_full hfork hb hroot, fun hg => absurd hg hfork, ?_⟩
    intro signature call hcall
    rw [hpublication] at hcall
    exact sszPublication_some hcall (hb.trans hisBlinded.symm) (heq ▸ deserializeBlockContentsSsz_block hblock)

theorem fullPublication_ok {contents : BlockContents} {call : Call J}
    (h : fullPublication P response contents signature = .ok call) (hb : header.isBlinded = false)
    (hblock : header.block = contents.theBlock) :
    call.isBlockPublish = true ∧ call.Carries P header signature := by
  unfold fullPublication at h
  split at h
  next block kzgProofs blobs =>
    obtain rfl : header.block = block := hblock
    split at h
    · cases h
    next layout hlayout =>
    obtain ⟨body, hbody, h⟩ := bind_eq_ok.mp h
    cases h
    exact ⟨rfl, hb, rfl, rfl, rfl, rfl, rfl, layout, hlayout, mapError_eq_ok.mp hbody⟩
  next block =>
    obtain rfl : header.block = block := hblock
    cases h
    exact ⟨rfl, hb, rfl, rfl⟩

theorem prepareFull_checked (hfork : ¬ .gloas ≤ duty.fork env.forkSchedule)
    (h : prepareFull P response duty.slot (some duty.validator) = .ok prepared) :
    prepared.Checked P env duty := by
  simp only [prepareFull, bind_eq_ok] at h
  obtain ⟨contents, -, _, -, _, hvalid, _, -, _, -, header, hheader, h⟩ := h
  cases h
  obtain ⟨heq, hb, hroot⟩ := headerFromFull_ok hheader
  exact ⟨validateFull_ok hvalid heq, hashesBody_full hfork hb hroot, fun hg => absurd hg hfork,
    fun signature call hcall => fullPublication_ok hcall hb heq⟩

theorem prepareBlinded_checked (hfork : ¬ .gloas ≤ duty.fork env.forkSchedule)
    (h : prepareBlinded P env.forkSchedule response duty.slot (some duty.validator) = .ok prepared) :
    prepared.Checked P env duty := by
  simp only [prepareBlinded, bind_eq_ok] at h
  obtain ⟨_, -, block, -, _, -, _, hvalid, _, -, header, hheader, h⟩ := h
  cases h
  obtain ⟨heq, hb, hroot⟩ := headerFromBlinded_ok hheader
  refine ⟨validateBlinded_ok hvalid heq, hashesBody_blinded hfork hb hroot, fun hg => absurd hg hfork, ?_⟩
  intro signature call hcall
  cases hcall
  exact ⟨rfl, hb, heq.symm, rfl⟩

theorem parseGloasBlockContentsJson_blockSsz {data : J} {contents : GloasBlockContents J}
    (h : parseGloasBlockContentsJson P data = .ok contents) : contents.blockSsz = none := by
  simp only [parseGloasBlockContentsJson, bind_eq_ok] at h
  obtain ⟨_, -, _, -, _, -, _, -, _, -, h⟩ := h
  cases h
  rfl

theorem decodeV4Body_block {decoded : ProduceBlockV4Body J} (h : decodeV4Body P response = .ok decoded)
    {blockSsz : Bytes} (hssz : decoded.parts.2.1 = some blockSsz) :
    deserializeBlockFields blockSsz 0 blockSsz.length = .ok decoded.parts.1 := by
  unfold decodeV4Body at h
  split at h
  · unfold decodeV4Ssz at h
    split at h
    · cases h
    split at h
    · cases h
    split at h
    · obtain ⟨parsed, hparsed, rfl⟩ := map_eq_ok.mp h
      cases hssz
      exact deserializeGloasBlockContents_block hparsed
    · obtain ⟨⟨block, offset⟩, hparsed, rfl⟩ := map_eq_ok.mp h
      obtain ⟨rfl, hread⟩ := deserializeBeaconBlockFromSsz_block hparsed
      cases hssz
      exact hread
    · cases h
    · cases h
  · unfold decodeV4Json at h
    split at h
    · obtain ⟨contents, hcontents, rfl⟩ := map_eq_ok.mp h
      have hnone : (ProduceBlockV4Body.blockContents contents).parts.2.1 = none :=
        parseGloasBlockContentsJson_blockSsz hcontents
      rw [hnone] at hssz
      cases hssz
    · obtain ⟨block, -, rfl⟩ := map_eq_ok.mp h
      cases hssz
    · cases h
    · cases h

theorem v4Publication_ok {fork : ForkName} {builderUrl : Option String} {blockSsz : Option Bytes} {call : Call J}
    (h : v4Publication fork builderUrl block blockSsz signature = .ok call) (hb : header.isBlinded = false)
    (hblock : header.block = block)
    (hread : ∀ bytes, blockSsz = some bytes → deserializeBlockFields bytes 0 bytes.length = .ok block) :
    call.isBlockPublish = true ∧ call.Carries P header signature := by
  subst hblock
  unfold v4Publication at h
  split at h
  next bytes =>
    obtain ⟨signed, hsigned, h⟩ := bind_eq_ok.mp h
    cases h
    exact ⟨rfl, hb, bytes, signed, hread bytes rfl, mapError_eq_ok.mp hsigned, .inl rfl⟩
  next =>
    cases h
    exact ⟨rfl, hb, rfl, rfl⟩

theorem prepareEnvelope_ok {decoded : ProduceBlockV4Body J} {envelope : Option (PreparedEnvelope J)}
    (hdecoded : decodeV4Body P response = .ok decoded) (h : prepareEnvelope P decoded.parts.2.2 = .ok envelope) :
    ∀ e, envelope = some e → EnvelopeRootOf P response e.objectRoot := by
  rintro e rfl
  cases decoded with
  | beaconBlock block blockSsz => cases h
  | blockContents contents =>
    obtain ⟨envelopeSsz, hssz, h⟩ := bind_eq_ok.mp h
    obtain ⟨root, hroot, h⟩ := bind_eq_ok.mp h
    cases h
    exact ⟨contents, envelopeSsz, hdecoded, hssz, mapError_eq_ok.mp hroot⟩

theorem prepareV4_checked {envelope : Option (PreparedEnvelope J)} (hfork : .gloas ≤ duty.fork env.forkSchedule)
    (h : prepareV4 P response duty.slot (some duty.validator) (duty.fork env.forkSchedule) = .ok (prepared, envelope)) :
    prepared.Checked P env duty ∧
      ∀ e, envelope = some e → EnvelopeRootOf P response e.objectRoot := by
  obtain ⟨_, -, h⟩ := bind_eq_ok.mp h
  obtain ⟨decoded, hdecoded, h⟩ := bind_eq_ok.mp h
  have hdecoded := mapError_eq_ok.mp hdecoded
  obtain ⟨_, -, h⟩ := bind_eq_ok.mp h
  obtain ⟨_, -, h⟩ := bind_eq_ok.mp h
  obtain ⟨_, hvalid, h⟩ := bind_eq_ok.mp h
  obtain ⟨_, henvelope, h⟩ := bind_eq_ok.mp h
  obtain ⟨⟨header, blockRoot⟩, hheader, h⟩ := bind_eq_ok.mp h
  cases h
  obtain ⟨heq, hb, hroot⟩ := gloasHeaderAndRoot_ok hheader
  refine ⟨⟨validateFull_ok hvalid heq, ?_, fun _ => hb, ?_⟩, prepareEnvelope_ok hdecoded henvelope⟩
  · rwa [BeaconBlockHeaderFields.HashesBody, if_pos hfork]
  · intro signature call hcall
    exact v4Publication_ok hcall hb heq fun bytes hbytes => decodeV4Body_block hdecoded hbytes

/-! ### The order of the calls -/

variable {past : List (Call J)}

theorem allowed_of_isRequest {call : Call J} (h : call.isRequest = true) : Allowed P env duty past call := by
  refine ⟨?_, fun hp => ?_, ?_⟩
  · rintro header rfl
    cases h
  · rw [isBlockPublish_of_isRequest h] at hp
    cases hp
  · rintro root slot rfl
    cases h

theorem signAndPublish_allowed (hpast : ∀ call ∈ past, call.isRequest = true) (h : prepared.Checked P env duty) :
    EachAfter (Allowed P env duty) past (signAndPublish env prepared).calls := by
  apply eachAfter_call_bind
  · refine ⟨?_, fun hp => ?_, ?_⟩
    · rintro header heq
      cases heq
      exact ⟨fun other hin => absurd (hpast _ hin) (by simp [isRequest]), h.answers, h.hashesBody, h.notBlinded⟩
    · cases hp
    · rintro root slot heq
      cases heq
  intro signature hsignature
  apply eachAfter_ofExcept_bind
  intro call hcall
  obtain ⟨hpublish, hcarries⟩ := h.publication signature.1 call hcall
  apply eachAfter_call_bind
  · refine ⟨?_, fun _ => ⟨?_, ?_⟩, ?_⟩
    · rintro header rfl
      cases hpublish
    · intro other hin
      obtain hin | hin := mem_append.mp hin
      · exact isBlockPublish_of_isRequest (hpast other hin)
      · obtain rfl := mem_singleton.mp hin
        rfl
    · exact ⟨prepared.header, signature, by simp, mapError_eq_ok.mp hsignature, hcarries⟩
    · rintro root slot rfl
      cases hpublish
  intro _ _
  trivial

theorem signAndPublish_ok {result : Root × Bool} (h : prepared.Checked P env duty)
    (hresult : (signAndPublish env prepared).result = .ok result) :
    ∃ call, call.isBlockPublish = true ∧ env.publish call = .ok () ∧
      (signAndPublish env prepared).calls = [.signBlockHeader prepared.header, call] := by
  unfold signAndPublish at hresult ⊢
  obtain ⟨signature, -, hresult, hcalls⟩ := call_bind_ok hresult
  obtain ⟨call, hcall, hresult, hcalls'⟩ := ofExcept_bind_ok hresult
  obtain ⟨_, hpublish, -, hcalls''⟩ := call_bind_ok hresult
  refine ⟨call, (h.publication signature.1 call hcall).1, hpublish, ?_⟩
  rw [hcalls, hcalls', hcalls'', calls_pure]

theorem signAndPublishEnvelope_allowed {envelope : PreparedEnvelope J}
    (hfork : .gloas ≤ duty.fork env.forkSchedule) (hproduce : env.produce = .ok response)
    (hroot : EnvelopeRootOf P response envelope.objectRoot)
    (hnone : ∀ root slot, .signExecutionPayloadEnvelopeRoot root slot ∉ past)
    (hpublished : ∃ published ∈ past, published.isBlockPublish = true ∧ env.publish published = .ok ()) :
    EachAfter (Allowed P env duty) past
      (signAndPublishEnvelope P env response envelope duty.slot (duty.fork env.forkSchedule)).calls := by
  apply eachAfter_ofExcept_bind
  intro _ _
  apply eachAfter_call_bind
  · refine ⟨fun header heq => ?_, fun hp => ?_, fun root slot heq => ?_⟩
    · cases heq
    · cases hp
    · cases heq
      exact ⟨hnone, hfork, hpublished, response, hproduce, hroot⟩
  intro signature _
  apply eachAfter_ofExcept_bind
  intro signed _
  refine ⟨⟨fun header heq => ?_, fun hp => ?_, fun root slot heq => ?_⟩, trivial⟩
  · cases heq
  · cases hp
  · cases heq

theorem signAndPublishV4_allowed (hpast : ∀ call ∈ past, call.isRequest = true)
    (hfork : .gloas ≤ duty.fork env.forkSchedule) (hproduce : env.produce = .ok response) :
    EachAfter (Allowed P env duty) past (signAndPublishV4 P env response duty.slot (some duty.validator)
      (duty.fork env.forkSchedule)).calls := by
  apply eachAfter_ofExcept_bind
  rintro ⟨prepared, envelope⟩ hprepared
  obtain ⟨hchecked, hroot⟩ := prepareV4_checked hfork hprepared
  apply eachAfter_bind (signAndPublish_allowed hpast hchecked)
  intro result hresult
  obtain ⟨call, hpublish, hok, hcalls⟩ := signAndPublish_ok hchecked hresult
  rw [hcalls]
  cases envelope with
  | none => trivial
  | some envelope =>
    apply eachAfter_bind
    · apply signAndPublishEnvelope_allowed hfork hproduce (hroot envelope rfl)
      · intro root slot hin
        simp only [mem_append, mem_cons, reduceCtorEq, not_mem_nil, or_false, false_or] at hin
        rcases hin with hin | rfl
        · exact absurd (hpast _ hin) (by simp [isRequest])
        · cases hpublish
      · exact ⟨call, by simp, hpublish, hok⟩
    · intro _ _
      trivial

theorem signAndPublishPreGloas_allowed (hpast : ∀ call ∈ past, call.isRequest = true)
    (hfork : ¬ .gloas ≤ duty.fork env.forkSchedule) :
    EachAfter (Allowed P env duty) past (signAndPublishPreGloas P env response duty.slot
      (some duty.validator) (duty.fork env.forkSchedule)).calls := by
  apply eachAfter_ofExcept_bind
  intro _ _
  apply eachAfter_ofExcept_bind
  intro _ _
  apply eachAfter_ofExcept_bind
  intro prepared hprepared
  apply signAndPublish_allowed hpast
  split at hprepared
  · exact prepareSsz_checked hfork hprepared
  split at hprepared
  · exact prepareBlinded_checked hfork hprepared
  · exact prepareFull_checked hfork hprepared

theorem proposeBlock_eachAfter (P : Primitives J) (env : Env J) (duty : Duty) : EachAfter (Allowed P env duty) []
      (proposeBlock P env duty.slot duty.proposerIndex duty.parentRoot).calls := by
  apply eachAfter_call_bind (allowed_of_isRequest rfl)
  intro randao _
  apply eachAfter_ofExcept_bind
  intro boost _
  by_cases hfork : .gloas ≤ ForkName.fromEpoch (duty.slot / slotsPerEpoch) env.forkSchedule
  · rw [if_pos hfork]
    apply eachAfter_call_bind (allowed_of_isRequest rfl)
    intro response hproduce
    rw [if_pos hfork]
    apply eachAfter_bind
    · apply signAndPublishV4_allowed (by simp [isRequest]) hfork (mapError_eq_ok.mp hproduce)
    · intro _ _
      trivial
  · rw [if_neg hfork]
    apply eachAfter_call_bind (allowed_of_isRequest rfl)
    intro response _
    rw [if_neg hfork]
    apply eachAfter_bind
    · apply signAndPublishPreGloas_allowed (by simp [isRequest]) hfork
    · intro _ _
      trivial

end

/-- **A proposal signs one validated block, in order.** Whatever the settings and whatever the signer and the
beacon node answer, every call `propose_block` makes is one that is allowed after the calls before it. -/
theorem proposeBlock_allowed {J : Type} (P : Primitives J) (env : Env J) (slot expectedProposerIndex : Nat)
    (expectedParentRoot : Option Root) (before after : List (Call J)) (call : Call J) :
    (proposeBlock P env slot expectedProposerIndex expectedParentRoot).calls = before ++ call :: after →
      Allowed P env ⟨slot, expectedProposerIndex, expectedParentRoot⟩ before call := by
  intro hsplit
  exact (proposeBlock_eachAfter P env ⟨slot, expectedProposerIndex, expectedParentRoot⟩).at_split hsplit

/-! ### The block of the test vectors -/

/-- The encoding of `external_vector_electra_body`. -/
def electraBody : Bytes :=
  List.replicate 96 0x11 ++ List.replicate 32 0x22 ++ u64ToLeBytes 7 ++ List.replicate 32 0x33 ++
    ("rvc-sec6a-spike-electra!!!!!".toList.map fun c => UInt8.ofNat c.toNat) ++ List.replicate 4 0 ++
    (List.replicate 5 (u32ToLeBytes 396)).flatten ++ List.replicate 64 0 ++ List.replicate 96 0x44 ++
    u32ToLeBytes 396 ++ (List.replicate 3 (u32ToLeBytes 924)).flatten ++
    -- the execution payload
    List.replicate 32 0x55 ++ List.replicate 20 0x66 ++ List.replicate 32 0x77 ++ List.replicate 32 0x88 ++
    List.replicate 256 0 ++ List.replicate 32 0x99 ++ u64ToLeBytes 12345 ++ u64ToLeBytes 30000000 ++
    u64ToLeBytes 1000000 ++ u64ToLeBytes 1700000000 ++ u32ToLeBytes 528 ++ [7] ++ List.replicate 31 0 ++
    List.replicate 32 0xaa ++ (List.replicate 2 (u32ToLeBytes 528)).flatten ++ List.replicate 16 0 ++
    -- no execution requests
    (List.replicate 3 (u32ToLeBytes 12)).flatten

def rootOfNat (n : Nat) : Root := ⟨(LittleEndian.toBytes 32 n).reverse, by simp⟩

/-- `EXTERNAL_ELECTRA_BODY_ROOT_HEX`. -/
def electraBodyRoot : Root := rootOfNat 0x58953d11e9b51a6e95c8c70ca51b7ad6b6e557a91caab298a71688dfab9e4870

/-- `EXTERNAL_ELECTRA_BLOCK_ROOT_HEX`. -/
def electraBlockRoot : Root := rootOfNat 0xb3f19bf190b0ab2466738ba06bbaf6e481041ca66db733c549975b27b53c92b9

def refused : String := "invalid SSZ body encoding"

/-- The functions as they are at that body; they refuse every other one. -/
def electraVector : Primitives Unit where
  electraBodyRoot := fun bytes => if bytes = electraBody then .ok electraBodyRoot else .error refused
  denebBodyRoot := fun _ => .error refused
  blindedElectraBodyRoot := fun _ => .error refused
  blindedDenebBodyRoot := fun _ => .error refused
  leavesRoot := fun _ _ _ _ _ => electraBlockRoot
  gloasBodyRoot := fun _ => .error (.invalidBody refused)
  gloasBlockRoot := fun _ _ _ _ _ => .error (.invalidBody refused)
  gloasEnvelopeRoot := fun _ => .error (.invalidBody refused)
  blobKzgCommitments := fun bytes layout => if bytes = electraBody ∧ layout = .electra then .ok [] else .error refused
  encodeBody := fun _ _ => .error refused
  parseFullBlock := fun _ _ => .error "invalid block contents"
  parseBlindedBlock := fun _ => .error "invalid blinded block"
  get := fun _ _ => none
  parseBeaconBlock := fun _ => .error "invalid block"
  asString := fun _ => none
  hexError := fun _ => "Odd number of digits"
  signedEnvelope := fun _ _ => ()

/-- The block with its body at an offset, behind a gap. -/
def blockText (slot : UInt64) (bodyOffset : UInt32) (gap : Bytes) : Bytes :=
  u64ToLeBytes slot ++ u64ToLeBytes 42 ++ List.replicate 32 0x11 ++ List.replicate 32 0x22 ++
    u32ToLeBytes bodyOffset ++ gap ++ electraBody

/-- The block in a `BlockContents` at an offset, with no proofs and no blobs. -/
def contentsText (offset : UInt32) (gap block : Bytes) : Bytes :=
  u32ToLeBytes offset ++ (List.replicate 2 (u32ToLeBytes (offset + UInt32.ofNat block.length))).flatten ++ gap ++ block

def electraResponse (bytes : Bytes) : ProduceBlockResponse Unit :=
  ⟨(), false, "electra", none, true, some bytes, false, none⟩

/-- Electra from the first epoch on. -/
def electraEnv (bytes : Bytes) : Env Unit where
  forkSchedule := ⟨0, 0, 0, 0, 0, 2 ^ 64 - 1, 2 ^ 64 - 1⟩
  mode := .maxProfit
  graffiti := none
  builderBoostFactor := 100
  minBid := 0
  builderConfig := none
  circuitBreakerTripped := false
  signRandaoReveal := .ok ⟨List.replicate 96 0, rfl⟩
  produce := .ok (electraResponse bytes)
  signBlockHeader := fun _ => .ok ⟨List.replicate 96 1, rfl⟩
  signEnvelope := fun _ => .ok ⟨List.replicate 96 2, rfl⟩
  publish := fun _ => .ok ()

def electraCalls : List (Call Unit) :=
  (proposeBlock electraVector (electraEnv (contentsText 12 [] (blockText 3000000 84 []))) 3000000 42 none).calls

/-- The block goes out as the last of the four calls of a proposal that succeeds. -/
theorem proposeBlock_allowed_electra : ∃ before call after, electraCalls = before ++ call :: after ∧
      before.length = 3 ∧ call.isBlockPublish = true ∧
      Allowed electraVector (electraEnv (contentsText 12 [] (blockText 3000000 84 []))) ⟨3000000, 42, none⟩ before
        call := by
  have hlength : 3 < electraCalls.length := by decide +kernel
  have hsplit : electraCalls = electraCalls.take 3 ++ electraCalls[3] :: electraCalls.drop 4 := by
    rw [← drop_eq_getElem_cons hlength, take_append_drop]
  have hpublish : electraCalls[3]?.map isBlockPublish = some true := by decide +kernel
  rw [getElem?_eq_getElem hlength] at hpublish
  refine ⟨_, electraCalls[3], _, hsplit, by decide +kernel, Option.some.inj hpublish, ?_⟩
  exact proposeBlock_allowed electraVector _ 3000000 42 none _ _ _ hsplit

end Rvc.BlockService
