import Rvc.Lib.Keyed
import Rvc.Slashing.Interchange.Export
import Rvc.Slashing.Stage

/-!
# An EIP-3076 importer of an exported file

`tests/support/eip3076_model.rs` writes Conditions 1 to 5 of the EIP out as a predicate on a file, independent
of this client's own import. A file exported from the database makes such an importer refuse everything the
database refuses by a floor or a slashable pair: dropped rows lie below the synthetic record, which is the
file's minimum, and copied rows stand for themselves.
-/

namespace Rvc.Slashing

open Rvc.Lib Rvc.EthTypes Rvc.Observability List

/-! ### Conditions 1 to 5 -/

inductive Candidate where
  | attestation (sourceEpoch targetEpoch : Nat) (signingRoot : Option String)
  | block (slot : Nat) (signingRoot : Option String)
  deriving DecidableEq

def sameRoot : Option String → Option String → Bool
  | some left, some right => left == right
  | _, _ => false

def surrounds (left right : ParsedAttestation) : Bool :=
  left.sourceEpoch < right.sourceEpoch && right.targetEpoch < left.targetEpoch

def attestationSlashable (left right : ParsedAttestation) : Bool :=
  if sameRoot left.signingRoot right.signingRoot then
    false
  else
    left.targetEpoch == right.targetEpoch || surrounds left right || surrounds right left

/-- `slashable_attestation_pair`: Condition 3 between two records of a file. -/
def slashableAttestationPair (left right : InterchangeAttestation) : Bool :=
  match parseAttestation left, parseAttestation right with
  | .ok left, .ok right => attestationSlashable left right
  | _, _ => true

section

variable (blocks : List ParsedBlock) (slot : Nat) (signingRoot : Option String)

def repeatBlock : Bool :=
  blocks.any fun block => block.slot == slot && sameRoot block.signingRoot signingRoot

def refusesBlock : Bool :=
  match (blocks.map (·.slot)).min? with
  | none => false
  | some minSlot =>
      blocks.any (fun block => block.slot == slot && !sameRoot block.signingRoot signingRoot) ||
        (slot ≤ minSlot && !repeatBlock blocks slot signingRoot)

end

section

variable (atts : List ParsedAttestation) (candidate : ParsedAttestation)

def repeatAttestation : Bool :=
  atts.any fun att => att.sourceEpoch == candidate.sourceEpoch &&
    att.targetEpoch == candidate.targetEpoch && sameRoot att.signingRoot candidate.signingRoot

def refusesAttestation : Bool :=
  match (atts.map (·.sourceEpoch)).min?, (atts.map (·.targetEpoch)).min? with
  | some minSource, some minTarget =>
      candidate.sourceEpoch < minSource ||
        (candidate.targetEpoch ≤ minTarget && !repeatAttestation atts candidate) ||
        atts.any (attestationSlashable candidate)
  | _, _ => false

end

/-- `history`: the records of one pubkey, if all of them parse. -/
def fileHistory (file : InterchangeFormat) (pubkey : String) : Option (List ParsedBlock × List ParsedAttestation) :=
  let records := file.data.filter fun record => record.pubkey = pubkey
  match (records.flatMap (·.signedBlocks)).mapM parseBlock,
      (records.flatMap (·.signedAttestations)).mapM parseAttestation with
  | .ok blocks, .ok atts => some (blocks, atts)
  | _, _ => none

/-- `refuses`: an EIP-3076 importer of `file` must refuse `candidate` for `pubkey`. -/
def refuses (file : InterchangeFormat) (pubkey : String) (candidate : Candidate) : Bool :=
  match fileHistory file pubkey with
  | none => true
  | some (blocks, atts) =>
      match candidate with
      | .block slot signingRoot => refusesBlock blocks slot signingRoot
      | .attestation source target signingRoot =>
          refusesAttestation atts ⟨source, target, signingRoot⟩

/-! ### Ways to be refused -/

theorem exists_min {α : Type} {xs : List α} {x : α} (f : α → Nat) (hx : x ∈ xs) :
    ∃ m, (xs.map f).min? = some m ∧ m ∈ xs.map f := by
  cases h : (xs.map f).min? with
  | some m => exact ⟨m, rfl, List.min?_mem h⟩
  | none => simp_all

section

variable {atts : List ParsedAttestation} {att candidate : ParsedAttestation}

theorem refusesAttestation_of_source (hatt : att ∈ atts) (h : ∀ a ∈ atts, candidate.sourceEpoch < a.sourceEpoch) :
    refusesAttestation atts candidate = true := by
  obtain ⟨s, hs, hsmem⟩ := exists_min (·.sourceEpoch) hatt
  obtain ⟨t, ht, -⟩ := exists_min (·.targetEpoch) hatt
  obtain ⟨a, ha, rfl⟩ := mem_map.mp hsmem
  simp [refusesAttestation, hs, ht, h a ha]

theorem refusesAttestation_of_target (hatt : att ∈ atts) (h : ∀ a ∈ atts, candidate.targetEpoch ≤ a.targetEpoch)
    (hfresh : ∀ a ∈ atts, sameRoot a.signingRoot candidate.signingRoot = false) :
    refusesAttestation atts candidate = true := by
  obtain ⟨s, hs, -⟩ := exists_min (·.sourceEpoch) hatt
  obtain ⟨t, ht, htmem⟩ := exists_min (·.targetEpoch) hatt
  obtain ⟨a, ha, rfl⟩ := mem_map.mp htmem
  have hrepeat : repeatAttestation atts candidate = false := by
    rw [repeatAttestation, any_eq_false]
    exact fun a ha => by simp [hfresh a ha]
  simp [refusesAttestation, hs, ht, h a ha, hrepeat]

theorem refusesAttestation_of_least (hatt : att ∈ atts)
    (hleast : ∀ a ∈ atts, att.sourceEpoch ≤ a.sourceEpoch ∧ att.targetEpoch ≤ a.targetEpoch)
    (hfresh : ∀ a ∈ atts, sameRoot a.signingRoot candidate.signingRoot = false)
    (h : candidate.sourceEpoch < att.sourceEpoch ∨ candidate.targetEpoch ≤ att.targetEpoch) :
    refusesAttestation atts candidate = true := by
  rcases h with hlt | hle
  · exact refusesAttestation_of_source hatt fun a ha => hlt.trans_le (hleast a ha).1
  · exact refusesAttestation_of_target hatt (fun a ha => hle.trans (hleast a ha).2) hfresh

theorem refusesAttestation_of_slashable (hatt : att ∈ atts)
    (h : attestationSlashable candidate att = true) : refusesAttestation atts candidate = true := by
  obtain ⟨s, hs, -⟩ := exists_min (·.sourceEpoch) hatt
  obtain ⟨t, ht, -⟩ := exists_min (·.targetEpoch) hatt
  have hany : atts.any (attestationSlashable candidate) = true := any_eq_true.mpr ⟨att, hatt, h⟩
  simp [refusesAttestation, hs, ht, hany]

end

section

variable {blocks : List ParsedBlock} {block : ParsedBlock} {slot : Nat} {signingRoot : Option String}

theorem refusesBlock_of_slot (hblock : block ∈ blocks) (hslot : block.slot = slot)
    (hne : sameRoot block.signingRoot signingRoot = false) :
    refusesBlock blocks slot signingRoot = true := by
  obtain ⟨m, hm, -⟩ := exists_min (·.slot) hblock
  have hany : (blocks.any fun block => block.slot == slot && !sameRoot block.signingRoot signingRoot) =
      true := any_eq_true.mpr ⟨block, hblock, by simp [hslot, hne]⟩
  simp [refusesBlock, hm, hany]

theorem refusesBlock_of_minimum (hblock : block ∈ blocks) (h : ∀ b ∈ blocks, slot ≤ b.slot)
    (hfresh : ∀ b ∈ blocks, sameRoot b.signingRoot signingRoot = false) :
    refusesBlock blocks slot signingRoot = true := by
  obtain ⟨m, hm, hmem⟩ := exists_min (·.slot) hblock
  obtain ⟨b, hb, rfl⟩ := mem_map.mp hmem
  have hrepeat : repeatBlock blocks slot signingRoot = false := by
    rw [repeatBlock, any_eq_false]
    exact fun b hb => by simp [hfresh b hb]
  simp [refusesBlock, hm, h b hb, hrepeat]

end

/-! ### Transport of refusals -/

theorem sameRoot_of_ne {stored : Option String} {root : String} (h : stored ≠ some root) :
    sameRoot stored (some root) = false := by
  cases stored with
  | none => rfl
  | some other => simpa [sameRoot] using h

theorem sameRoot_comm (left right : Option String) : sameRoot left right = sameRoot right left := by
  cases left <;> cases right <;> simp [sameRoot, Bool.beq_comm]

theorem attestationSlashable_iff {left right : ParsedAttestation}
    (h : sameRoot left.signingRoot right.signingRoot = false) :
    attestationSlashable left right = true ↔ left.targetEpoch = right.targetEpoch ∨
      (left.sourceEpoch < right.sourceEpoch ∧ right.targetEpoch < left.targetEpoch) ∨
      (right.sourceEpoch < left.sourceEpoch ∧ left.targetEpoch < right.targetEpoch) := by
  simp [attestationSlashable, h, surrounds, or_assoc]

theorem attestationSlashable_row {row : AttestationRow} (hrow : row.Small) {source target : Nat}
    (hs : source < 2 ^ 63) (ht : target < 2 ^ 63) {root : String} (hfresh : row.signingRoot ≠ some root)
    (hconf : row.vote.Conflicts (AttestationCandidate.vote ⟨source, target, some root⟩)) :
    attestationSlashable ⟨source, target, some root⟩ row.toParsed = true := by
  have hroot : sameRoot (some root) row.signingRoot = false := by
    rw [sameRoot_comm]
    exact sameRoot_of_ne hfresh
  obtain ⟨hsrc, htgt⟩ := hrow.casts
  rw [AttestationCandidate.Small.vote ⟨hs, ht⟩] at hconf
  simp only [Vote.Conflicts, Vote.Surrounds, AttestationRow.vote] at hconf
  rw [attestationSlashable_iff hroot]
  simp only [AttestationRow.toParsed]
  omega

section

variable {t : Tables} {pubkey : String} {strict : Bool} {root : String} {e : SlashingError}

theorem synthetic_le {ws wt : Int} {source target : Nat} {copied : List ParsedAttestation}
    (hbounds : SyntheticBounds (exportRows t pubkey) (asU64 ws) (asU64 wt) (source, target))
    (hmem : ∀ a, a ∈ copied ↔ ∃ row ∈ t.attestations, row.pubkey = pubkey ∧
      target < asU64 row.targetEpoch ∧ row.toParsed = a) :
    ∀ a ∈ ⟨source, target, none⟩ :: copied, source ≤ a.sourceEpoch ∧ target ≤ a.targetEpoch := by
  rintro a (_ | ⟨_, ha⟩)
  · exact ⟨le_rfl, le_rfl⟩
  · obtain ⟨row, hrow, hpk, hlt, rfl⟩ := (hmem a).mp ha
    exact ⟨hbounds.above _ (mem_exportRows.mpr ⟨row, hrow, hpk, rfl⟩) hlt, hlt.le⟩

/-- What the database refuses by a floor or a slashable pair, the importer of its records refuses. -/
theorem AttestationsExported.refuses {synthetic : Option ParsedAttestation}
    {copied : List ParsedAttestation} (hexp : AttestationsExported t pubkey synthetic copied)
    (hsmall : t.Small) {source target : Nat} (hs : source < 2 ^ 63) (ht : target < 2 ^ 63)
    (hfresh : t.FreshRoot root) (href : AttestationRefusal t pubkey ⟨source, target, some root⟩ strict e)
    (hmin : e.isBelowMinimum = false) :
    refusesAttestation (synthetic.toList ++ copied) ⟨source, target, some root⟩ = true := by
  -- a copied row stands for itself
  have hcopied : ∀ row ∈ t.attestations, row.toParsed ∈ synthetic.toList ++ copied →
      row.vote.Conflicts (AttestationCandidate.vote ⟨source, target, some root⟩) →
      refusesAttestation (synthetic.toList ++ copied) ⟨source, target, some root⟩ = true :=
    fun row hrow hin hconf => refusesAttestation_of_slashable hin
      (attestationSlashable_row (hsmall.attestations row hrow) hs ht (hfresh.1 row hrow) hconf)
  have hgrounds := href.grounds
  rw [hmin] at hgrounds
  cases hexp with
  | rows hnos hnot hmem =>
    rcases hgrounds with ⟨ws, hwm, -⟩ | ⟨wt, hwm, -⟩ | ⟨row, hrow, hpk, hconf⟩ | ⟨_, _, _, _, hfalse⟩
    · rw [hnos] at hwm; cases hwm
    · rw [hnot] at hwm; cases hwm
    · exact hcopied row hrow ((hmem _).mpr ⟨row, hrow, hpk, rfl⟩) hconf
    · cases hfalse
  | @floor ws wt S T _ hws hwt hbounds hkept =>
    have hroots : ∀ a ∈ (⟨S, T, none⟩ : ParsedAttestation) :: copied, sameRoot a.signingRoot (some root) = false := by
      rintro a (_ | ⟨_, ha⟩)
      · rfl
      · obtain ⟨row, hrow, -, -, rfl⟩ := (hkept a).mp ha
        exact sameRoot_of_ne (hfresh.1 row hrow)
    have hbelow : source < S ∨ target ≤ T →
        refusesAttestation (⟨S, T, none⟩ :: copied) ⟨source, target, some root⟩ = true := fun h =>
      refusesAttestation_of_least mem_cons_self (synthetic_le hbounds hkept) hroots h
    rcases hgrounds with ⟨ws', hwm, hlt⟩ | ⟨wt', hwm, hle⟩ | ⟨row, hrow, hpk, hconf⟩ | ⟨_, _, _, _, hfalse⟩
    · rw [hws] at hwm
      cases hwm
      exact hbelow (.inl (hlt.trans_le hbounds.sourceWm_le))
    · rw [hwt] at hwm
      cases hwm
      exact hbelow (.inr (hle.trans hbounds.targetWm_le))
    · by_cases hlt : T < asU64 row.targetEpoch
      · exact hcopied row hrow (mem_cons_of_mem _ ((hkept _).mpr ⟨row, hrow, hpk, hlt, rfl⟩)) hconf
      · -- a dropped row is under the synthetic
        have hle := Nat.not_lt.mp hlt
        have hsource := hbounds.below _ (mem_exportRows.mpr ⟨row, hrow, hpk, rfl⟩) hle
        exact hbelow (((hsmall.attestations row hrow).of_conflicts ⟨hs, ht⟩ hconf).imp
          (·.trans_le hsource) (·.trans hle))
    · cases hfalse

theorem BlocksExported.refuses {synthetic : Option ParsedBlock} {copied : List ParsedBlock}
    (hexp : BlocksExported t pubkey synthetic copied) {slot : Nat} (hslot : slot < 2 ^ 63)
    (hfresh : t.FreshRoot root) (href : BlockRefusal t pubkey ⟨slot, some root⟩ strict e)
    (hmin : e.isBelowMinimum = false) :
    refusesBlock (synthetic.toList ++ copied) slot (some root) = true := by
  have hat : ∀ row, t.rowAtSlot pubkey (asI64 slot) = some row →
      row ∈ t.blocks ∧ row.pubkey = pubkey ∧ asU64 row.slot = slot := by
    intro row hfound
    obtain ⟨hin, hpk, heq⟩ := Tables.rowAtSlot_some hfound
    exact ⟨hin, hpk, by rw [heq, asU64_asI64_of_lt (by omega)]⟩
  cases hexp with
  | rows hnone hmem =>
    cases href with
    | belowWatermark hwm => rw [hnone] at hwm; cases hwm
    | doubleProposal hfound =>
      obtain ⟨hin, hpk, heq⟩ := hat _ hfound
      exact refusesBlock_of_slot ((hmem _).mpr ⟨_, hin, hpk, rfl⟩) heq (sameRoot_of_ne (hfresh.2 _ hin))
    | belowMinimum => cases hmin
  | @floor wm _ hwm hkept =>
    have hsyn : (⟨asU64 wm, none⟩ : ParsedBlock) ∈ ⟨asU64 wm, none⟩ :: copied := mem_cons_self
    have hfloor : slot ≤ asU64 wm → refusesBlock (⟨asU64 wm, none⟩ :: copied) slot (some root) = true := by
      refine fun hle => refusesBlock_of_minimum hsyn ?_ ?_
      · rintro b (_ | ⟨_, hb⟩)
        · exact hle
        · obtain ⟨row, -, -, hlt, rfl⟩ := (hkept b).mp hb
          exact hle.trans hlt.le
      · rintro b (_ | ⟨_, hb⟩)
        · rfl
        · obtain ⟨row, hrow, -, -, rfl⟩ := (hkept b).mp hb
          exact sameRoot_of_ne (hfresh.2 row hrow)
    cases href with
    | belowWatermark hfound hle =>
      rw [hwm] at hfound
      cases hfound
      exact hfloor hle
    | @doubleProposal row hfound =>
      obtain ⟨hin, hpk, heq⟩ := hat _ hfound
      by_cases hlt : asU64 wm < asU64 row.slot
      · exact refusesBlock_of_slot (mem_cons_of_mem _ ((hkept _).mpr ⟨row, hin, hpk, hlt, rfl⟩))
          heq (sameRoot_of_ne (hfresh.2 _ hin))
      · exact hfloor (by omega)
    | belowMinimum => cases hmin

end

/-! ### The file -/

theorem nodup_readAllPubkeys (t : Tables) : (readAllPubkeys t).Nodup := nodup_dedup _

theorem fileHistory_exported {t : Tables} {gvr : Root} {file : InterchangeFormat}
    (h : exportInterchange t gvr = .ok file) (pubkey : String) : ∃ synBlock blocks synAtt atts,
      fileHistory file pubkey = some (synBlock.toList ++ blocks, synAtt.toList ++ atts) ∧
      BlocksExported t pubkey synBlock blocks ∧ AttestationsExported t pubkey synAtt atts := by
  obtain ⟨-, hkeys, hrecords⟩ := exportInterchange_spec h
  by_cases hin : pubkey ∈ readAllPubkeys t
  · rw [← hkeys] at hin
    obtain ⟨record, hrecord, rfl⟩ := mem_map.mp hin
    obtain ⟨synthetic, copied, hatt, hatts, hblks⟩ := hrecords record hrecord
    obtain ⟨synAtt, atts, hexp, hsyn, hparse⟩ := exportAttestations_spec hatt
    obtain ⟨synBlock, blocks, hexp', hsyn', hparse'⟩ :=
      exportBlocks_spec (Prod.mk.eta (p := exportBlocks t record.pubkey)).symm
    have honly := filter_key_eq_singleton (hkeys ▸ nodup_readAllPubkeys t) hrecord
    refine ⟨synBlock, blocks, synAtt, atts, ?_, hexp', hexp⟩
    simp [fileHistory, honly, hatts, hblks, mapM_append_ok hsyn hparse, mapM_append_ok hsyn' hparse']
  · -- no row and no watermark of this pubkey: an empty history on both sides
    have hnone := hin
    rw [mem_readAllPubkeys, not_or, not_or] at hnone
    obtain ⟨hnoAtt, hnoBlock, hnoWm⟩ := hnone
    have hlookup : ∀ kind, t.watermarks.lookup (pubkey, kind) = none := fun kind =>
      Option.eq_none_iff_forall_ne_some.mpr fun wm hwm => hnoWm ⟨kind, wm, hwm⟩
    have hempty : (file.data.filter fun record => record.pubkey = pubkey) = [] := by
      rw [filter_eq_nil_iff]
      intro record hrecord
      simpa using fun heq => hin (hkeys ▸ mem_map.mpr ⟨record, hrecord, heq⟩)
    refine ⟨none, [], none, [], ?_, .rows (hlookup _) fun b => ?_, .rows (hlookup _) (hlookup _) fun a => ?_⟩
    · simp [fileHistory, hempty, pure, Except.pure]
    · simpa using fun row hrow hpk _ => hnoBlock ⟨row, hrow, hpk⟩
    · simpa using fun row hrow hpk _ => hnoAtt ⟨row, hrow, hpk⟩

theorem synthetic_not_slashable {t : Tables} {pubkey : String} {synthetic : InterchangeAttestation}
    {copied : List InterchangeAttestation} (h : exportAttestations t pubkey = .ok (some synthetic, copied)) :
    ∀ other ∈ copied, slashableAttestationPair synthetic other = false := by
  intro other hother
  obtain ⟨synAtt, atts, hexp, hsyn, hparse⟩ := exportAttestations_spec h
  obtain ⟨parsed, hparsed, hotherParse⟩ := exists_result_of_mem hparse hother
  cases hexp with
  | rows => cases mapM_eq_ok.mp hsyn
  | @floor ws wt source target _ hs ht hbounds hmem =>
    obtain ⟨hsynParse, -⟩ := forall₂_cons.mp (mapM_eq_ok.mp hsyn)
    obtain ⟨row, hrow, hpk, hlt, rfl⟩ := (hmem parsed).mp hparsed
    have hsource : source ≤ asU64 row.sourceEpoch :=
      (synthetic_le hbounds hmem _ (mem_cons_of_mem _ hparsed)).1
    rw [slashableAttestationPair, hsynParse, hotherParse]
    simp only [Bool.eq_false_iff, ne_eq]
    rw [attestationSlashable_iff rfl]
    simp only [AttestationRow.toParsed]
    omega

theorem synthetic_slot_ne {t : Tables} {pubkey : String} {synthetic : InterchangeBlock}
    {copied : List InterchangeBlock} (h : exportBlocks t pubkey = (some synthetic, copied)) :
    ∀ other ∈ copied, parseU64 synthetic.slot ≠ parseU64 other.slot := by
  intro other hother
  obtain ⟨synBlock, blocks, hexp, hsyn, hparse⟩ := exportBlocks_spec h
  obtain ⟨parsed, hparsed, hotherParse⟩ := exists_result_of_mem hparse hother
  cases hexp with
  | rows => cases mapM_eq_ok.mp hsyn
  | @floor wm _ hwm hmem =>
    obtain ⟨hsynParse, -⟩ := forall₂_cons.mp (mapM_eq_ok.mp hsyn)
    obtain ⟨row, hrow, hpk, hlt, rfl⟩ := (hmem parsed).mp hparsed
    rw [(parseBlock_ok.mp hsynParse).1, (parseBlock_ok.mp hotherParse).1]
    simpa [BlockRow.toParsed] using hlt.ne

/-- **Export is non-weakening.** Whatever the database refuses by a floor or a slashable pair, an EIP-3076
importer of the exported file refuses; and a synthetic record is slashable with no other record of its
validator, which has only one entry in the file. -/
theorem export_non_weakening (db : SlashingDb) {t : Tables} (hsmall : t.Small) {gvr : Root}
    {file : InterchangeFormat} (hexport : exportInterchange t gvr = .ok file) :
    (∀ pubkeyHex source target root signGvr e, source < 2 ^ 63 → target < 2 ^ 63 → t.FreshRoot root →
      stageAttestation db t pubkeyHex source target (some root) signGvr = .error e →
      e.isEip3076 = true → e.isBelowMinimum = false →
      refuses file (normalizePubkey pubkeyHex) (.attestation source target (some root)) = true) ∧
    (∀ pubkeyHex slot root signGvr e, slot < 2 ^ 63 → t.FreshRoot root →
      stageBlock db t pubkeyHex slot (some root) signGvr = .error e → e.isEip3076 = true → e.isBelowMinimum = false →
      refuses file (normalizePubkey pubkeyHex) (.block slot (some root)) = true) ∧ (file.data.map (·.pubkey)).Nodup ∧
    (∀ record ∈ file.data, ∀ synthetic copied, exportAttestations t record.pubkey = .ok (some synthetic, copied) →
      record.signedAttestations = synthetic :: copied ∧
        ∀ other ∈ copied, slashableAttestationPair synthetic other = false) ∧ (∀ record ∈ file.data, ∀ synthetic copied,
      exportBlocks t record.pubkey = (some synthetic, copied) → record.signedBlocks = synthetic :: copied ∧
        ∀ other ∈ copied, parseU64 synthetic.slot ≠ parseU64 other.slot) := by
  obtain ⟨-, hkeys, hrecords⟩ := exportInterchange_spec hexport
  refine ⟨?_, ?_, hkeys ▸ nodup_readAllPubkeys t, ?_, ?_⟩
  · intro pubkeyHex source target root signGvr e hs ht hfresh hstage he hmin
    obtain ⟨synBlock, blocks, synAtt, atts, hfile, -, hexp⟩ :=
      fileHistory_exported hexport (normalizePubkey pubkeyHex)
    rw [refuses, hfile]
    exact hexp.refuses hsmall hs ht hfresh (stageAttestation_error hstage he) hmin
  · intro pubkeyHex slot root signGvr e hslot hfresh hstage he hmin
    obtain ⟨synBlock, blocks, synAtt, atts, hfile, hexp, -⟩ :=
      fileHistory_exported hexport (normalizePubkey pubkeyHex)
    rw [refuses, hfile]
    exact hexp.refuses hslot hfresh (stageBlock_error hstage he) hmin
  · intro record hrecord synthetic copied hsyn
    obtain ⟨_, _, hatt, hatts, -⟩ := hrecords record hrecord
    cases hatt.symm.trans hsyn
    exact ⟨hatts, synthetic_not_slashable hsyn⟩
  · intro record hrecord synthetic copied hsyn
    obtain ⟨_, _, -, -, hblks⟩ := hrecords record hrecord
    rw [hsyn] at hblks
    exact ⟨hblks, synthetic_slot_ne hsyn⟩

/-- The vote `(2, 9)` surrounds the copied row; both the database and the importer refuse it. -/
theorem export_non_weakening_sample : refuses sampleExport "0xaa" (.attestation 2 9 (some "fresh")) = true := by
  have hkey : normalizePubkey "AA" = "0xaa" := by decide +kernel
  have hstage : stageAttestation ⟨true, 0⟩ sampleTables "AA" 2 9 (some "fresh") zeroRoot =
      .error (.slashableAttestation (.surroundingVote 2 9 3 8)) := by decide +kernel
  rw [← hkey]
  exact (export_non_weakening ⟨true, 0⟩ sampleTables_small sampleTables_export).1 "AA" 2 9 "fresh" zeroRoot _
    (by decide) (by decide) ⟨by decide, by decide⟩ hstage rfl rfl

end Rvc.Slashing
