import Rvc.Lib.Keyed
import Rvc.Slashing.Interchange.Wire
import Rvc.Slashing.Stage

/-!
# Import

`SlashingDb::import`: the file is checked and parsed before the connection is taken, then one transaction
inserts the rows that have no row at their key yet and raises the watermarks to the file's maxima. Every
statement extends the tables (`Tables.Extends`): rows are only appended, at free keys, and watermarks only
rise, so a refusal that does not rest on the minimum alone survives.
-/

namespace Rvc.Slashing

open Rvc.Lib Rvc.EthTypes Rvc.Observability List Conn

/-! ### The statements -/

section

variable (gvrHex pubkey : String)

/-- `INSERT_ATTESTATION_SQL`: a row at an occupied `(pubkey, target_epoch)` is dropped. -/
def insertParsedAttestation (attestation : ParsedAttestation) (t : Tables) : Tables :=
  if t.attestations.any fun row => row.pubkey = pubkey ∧ row.targetEpoch = asI64 attestation.targetEpoch then
    t
  else
    { t with attestations := t.attestations ++ [⟨auditOrigin, pubkey, asI64 attestation.sourceEpoch,
        asI64 attestation.targetEpoch, attestation.signingRoot, some gvrHex⟩] }

/-- `INSERT_BLOCK_SQL`: a row at an occupied `(pubkey, slot)` is dropped. -/
def insertParsedBlock (block : ParsedBlock) (t : Tables) : Tables :=
  if t.blocks.any fun row => row.pubkey = pubkey ∧ row.slot = asI64 block.slot then
    t
  else
    { t with blocks := t.blocks ++ [⟨auditOrigin, pubkey, asI64 block.slot, block.signingRoot, some gvrHex⟩] }

def watermarkStatements (validator : ParsedValidator) : List (Tables → Tables) :=
  (match validator.maxSlot with
    | some slot => [fun t => raiseWatermarkMax t validator.pubkey .block slot]
    | none => []) ++
  match validator.maxSource, validator.maxTarget with
  | some source, some target =>
      [fun t => raiseWatermarkMax t validator.pubkey .attestationSource source,
        fun t => raiseWatermarkMax t validator.pubkey .attestationTarget target]
  | _, _ => []

/-- One turn of the import loop: attestations, blocks, watermarks. -/
def validatorStatements (validator : ParsedValidator) : List (Tables → Tables) :=
  validator.attestations.map (insertParsedAttestation gvrHex validator.pubkey) ++
    (validator.blocks.map (insertParsedBlock gvrHex validator.pubkey) ++ watermarkStatements validator)

def importStatements (parsed : List ParsedValidator) : List (Tables → Tables) :=
  parsed.flatMap (validatorStatements gvrHex)

end

structure ImportFaults where
  beginTxn : Option String
  statement : Nat → Option Fault
  commitTxn : Option Fault

def ImportFaults.none : ImportFaults := ⟨.none, fun _ => .none, .none⟩

def importBody (faults : ImportFaults) (gvrHex : String) (parsed : List ParsedValidator)
    (c : Conn Tables) : Except SlashingError Unit × Conn Tables :=
  match c.runStatements faults.statement 0 (importStatements gvrHex parsed) with
  | (.error message, c) => (.error (.databaseError message), c)
  | (.ok (), c) =>
      match c.commit faults.commitTxn with
      | (.error message, c) => (.error (.databaseError message), c)
      | (.ok (), c) => (.ok (), c)

/-- `SlashingDb::import`. A transaction object that is dropped before its commit rolls back. -/
def importInterchange (faults : ImportFaults) (c : Conn Tables) (interchange : InterchangeFormat)
    (gvr : Root) : Except SlashingError Unit × Conn Tables :=
  match validateInterchangeMetadata interchange gvr with
  | .error e => (.error e, c)
  | .ok () =>
      match parseInterchange interchange with
      | .error e => (.error e, c)
      | .ok parsed =>
          c.withImmediateTxn .databaseError faults.beginTxn (importBody faults (rootToHex gvr) parsed)

theorem importBody_cases (faults : ImportFaults) (gvrHex : String) (parsed : List ParsedValidator)
    (committed s : Tables) : importBody faults gvrHex parsed ⟨committed, some s⟩ =
        (.ok (), ⟨applyAll (importStatements gvrHex parsed) s, none⟩) ∨
      ∃ e c, importBody faults gvrHex parsed ⟨committed, some s⟩ = (.error e, c) ∧
        c.committed = committed := by
  unfold importBody
  rcases runStatements_spec faults.statement 0 committed s (importStatements gvrHex parsed) with
    h | ⟨message, c, h, hc⟩
  · rcases commit_cases committed (applyAll (importStatements gvrHex parsed) s) faults.commitTxn with
      h' | ⟨message, c, h', hc⟩
    · exact .inl (by rw [h]; simp only [h'])
    · exact .inr ⟨.databaseError message, c, by rw [h]; simp only [h'], hc⟩
  · exact .inr ⟨_, c, by rw [h], hc⟩

/-- An import either fails and leaves the committed tables alone, or applies its statements to them. -/
theorem importInterchange_cases (faults : ImportFaults) {c : Conn Tables} (hc : c.txn = none)
    (interchange : InterchangeFormat) (gvr : Root) :
    (∃ e, importInterchange faults c interchange gvr = (.error e, ⟨c.committed, none⟩)) ∨
      ∃ parsed, parseInterchange interchange = .ok parsed ∧ importInterchange faults c interchange gvr =
          (.ok (), ⟨applyAll (importStatements (rootToHex gvr) parsed) c.committed, none⟩) := by
  have hself : c = ⟨c.committed, none⟩ := by rw [← hc]
  unfold importInterchange
  cases validateInterchangeMetadata interchange gvr with
  | error e => exact .inl ⟨e, by rw [← hself]⟩
  | ok _ =>
  cases hparse : parseInterchange interchange with
  | error e => exact .inl ⟨e, by rw [← hself]⟩
  | ok parsed =>
  have hbody := importBody_cases faults (rootToHex gvr) parsed c.committed c.committed
  rcases withImmediateTxn_cases SlashingError.databaseError hc faults.beginTxn
    (importBody faults (rootToHex gvr) parsed) with ⟨message, h⟩ | ⟨a, d, hrun, h⟩ | ⟨e, d, hrun, h⟩
  · exact .inl ⟨_, by rw [← hself]; exact h⟩
  · rw [hrun] at hbody
    obtain hok | ⟨_, _, herr, -⟩ := hbody
    · exact .inr ⟨parsed, rfl, h.trans hok⟩
    · cases herr
  · rw [hrun] at hbody
    obtain hok | ⟨_, _, herr, hcommitted⟩ := hbody
    · cases hok
    · cases herr
      exact .inl ⟨e, by rw [← eq_of_rollback hcommitted]; exact h⟩

variable {t : Tables}

theorem importInterchange_ok {interchange : InterchangeFormat} {gvr : Root}
    {parsed : List ParsedValidator} (hmeta : validateInterchangeMetadata interchange gvr = .ok ())
    (hparse : parseInterchange interchange = .ok parsed) : importInterchange .none ⟨t, none⟩ interchange gvr =
      (.ok (), ⟨applyAll (importStatements (rootToHex gvr) parsed) t, none⟩) := by
  have hbody : importBody .none (rootToHex gvr) parsed ⟨t, some t⟩ =
      (.ok (), ⟨applyAll (importStatements (rootToHex gvr) parsed) t, none⟩) := by
    unfold importBody
    rw [runStatements_ok ImportFaults.none.statement fun _ => rfl]
    rfl
  unfold importInterchange
  rw [hmeta, hparse]
  simp only [withImmediateTxn, beginImmediate, ImportFaults.none] at hbody ⊢
  rw [hbody]

/-! ### Statements extend the tables -/

def AttestationRow.key (row : AttestationRow) : String × Int := (row.pubkey, row.targetEpoch)

def BlockRow.key (row : BlockRow) : String × Int := (row.pubkey, row.slot)

/-- Rows appended at free keys, watermarks raised, nothing else. -/
structure Tables.Extends (t t' : Tables) : Prop where
  attestations : AppendsFresh AttestationRow.key t.attestations t'.attestations
  blocks : AppendsFresh BlockRow.key t.blocks t'.blocks
  metadataGvr : t'.metadataGvr = t.metadataGvr
  watermarks : ∀ key wm, t.watermarks.lookup key = some wm →
    ∃ wm', t'.watermarks.lookup key = some wm' ∧ wm ≤ wm'

theorem Tables.Extends.refl (t : Tables) : t.Extends t :=
  ⟨.refl _ _, .refl _ _, rfl, fun _ wm h => ⟨wm, h, le_rfl⟩⟩

theorem Tables.Extends.trans {t' t'' : Tables} (h : t.Extends t') (h' : t'.Extends t'') : t.Extends t'' := by
  refine ⟨h.attestations.trans h'.attestations, h.blocks.trans h'.blocks,
    h'.metadataGvr.trans h.metadataGvr, fun key wm hwm => ?_⟩
  obtain ⟨wm', hwm', hle⟩ := h.watermarks key wm hwm
  obtain ⟨wm'', hwm'', hle'⟩ := h'.watermarks key wm' hwm'
  exact ⟨wm'', hwm'', hle.trans hle'⟩

theorem Tables.Raised.extends {t' : Tables} (h : t.Raised t') : t.Extends t' :=
  ⟨h.attestations ▸ .refl _ _, h.blocks ▸ .refl _ _, h.metadataGvr, h.watermarks⟩

theorem Tables.Extends.advances {t' : Tables} (h : t.Extends t') : t.Advances t' :=
  ⟨h.watermarks, fun _ hrow => .inl (h.attestations.subset hrow),
    fun _ hrow => .inl (h.blocks.subset hrow)⟩

def ParsedValidator.maxOf (validator : ParsedValidator) : WatermarkKind → Option Nat
  | .block => validator.maxSlot
  | .attestationSource => validator.maxSource
  | .attestationTarget => validator.maxTarget

variable {validator : ParsedValidator}

theorem mem_watermarkStatements {statement : Tables → Tables} (h : statement ∈ watermarkStatements validator) :
    ∃ kind value, statement = (fun t => raiseWatermarkMax t validator.pubkey kind value) ∧
      validator.maxOf kind = some value := by
  rcases mem_append.mp h with h | h
  · split at h
    · next slot hslot => exact ⟨.block, slot, mem_singleton.mp h, hslot⟩
    · simp at h
  · split at h
    · next source target hsource htarget =>
      rcases mem_pair.mp h with rfl | rfl
      · exact ⟨.attestationSource, source, rfl, hsource⟩
      · exact ⟨.attestationTarget, target, rfl, htarget⟩
    · simp at h

/-- What one statement does to the tables. -/
inductive ImportStep (gvrHex : String) (parsed : List ParsedValidator) (t : Tables) : Tables → Prop
  | kept : ImportStep gvrHex parsed t t
  | attestation {validator : ParsedValidator} {a : ParsedAttestation} {row : AttestationRow}
      (hvalidator : validator ∈ parsed) (ha : a ∈ validator.attestations)
      (hrow : row = ⟨auditOrigin, validator.pubkey, asI64 a.sourceEpoch, asI64 a.targetEpoch, a.signingRoot,
        some gvrHex⟩)
      (hfree : ∀ other ∈ t.attestations, row.key ≠ other.key) :
      ImportStep gvrHex parsed t { t with attestations := t.attestations ++ [row] }
  | block {validator : ParsedValidator} {b : ParsedBlock} {row : BlockRow} (hvalidator : validator ∈ parsed)
      (hb : b ∈ validator.blocks)
      (hrow : row = ⟨auditOrigin, validator.pubkey, asI64 b.slot, b.signingRoot, some gvrHex⟩)
      (hfree : ∀ other ∈ t.blocks, row.key ≠ other.key) :
      ImportStep gvrHex parsed t { t with blocks := t.blocks ++ [row] }
  | raised {validator : ParsedValidator} {kind : WatermarkKind} {value : Nat} (hvalidator : validator ∈ parsed)
      (hmax : validator.maxOf kind = some value) :
      ImportStep gvrHex parsed t (raiseWatermarkMax t validator.pubkey kind value)

section

variable {gvrHex : String} {parsed : List ParsedValidator} {statement : Tables → Tables}

theorem importStep (h : statement ∈ importStatements gvrHex parsed) (t : Tables) :
    ImportStep gvrHex parsed t (statement t) := by
  obtain ⟨validator, hvalidator, h⟩ := mem_flatMap.mp h
  rcases mem_append.mp h with h | h
  · obtain ⟨a, ha, rfl⟩ := mem_map.mp h
    unfold insertParsedAttestation
    split
    · exact .kept
    · next hfree =>
      simp only [any_eq_true, decide_eq_true_eq, not_exists, not_and] at hfree
      refine .attestation hvalidator ha rfl fun row hrow heq => ?_
      obtain ⟨hpk, htarget⟩ := Prod.mk.inj heq
      exact hfree row hrow hpk.symm htarget.symm
  · rcases mem_append.mp h with h | h
    · obtain ⟨b, hb, rfl⟩ := mem_map.mp h
      unfold insertParsedBlock
      split
      · exact .kept
      · next hfree =>
        simp only [any_eq_true, decide_eq_true_eq, not_exists, not_and] at hfree
        refine .block hvalidator hb rfl fun row hrow heq => ?_
        obtain ⟨hpk, hslot⟩ := Prod.mk.inj heq
        exact hfree row hrow hpk.symm hslot.symm
    · obtain ⟨kind, value, rfl, hmax⟩ := mem_watermarkStatements h
      exact .raised hvalidator hmax

theorem import_invariant {P : Tables → Prop} (h : ∀ t t', ImportStep gvrHex parsed t t' → P t → P t') (ht : P t) :
    P (applyAll (importStatements gvrHex parsed) t) :=
  applyAll_invariant (fun _ hmem t => h t _ (importStep hmem t)) ht

theorem importStatements_extends (h : statement ∈ importStatements gvrHex parsed) (t : Tables) :
    t.Extends (statement t) := by
  generalize hstep : statement t = t'
  cases hstep ▸ importStep h t with
  | kept => exact .refl t
  | attestation _ _ _ hfree => exact ⟨.single hfree, .refl _ _, rfl, fun _ wm h => ⟨wm, h, le_rfl⟩⟩
  | block _ _ _ hfree => exact ⟨.refl _ _, .single hfree, rfl, fun _ wm h => ⟨wm, h, le_rfl⟩⟩
  | raised => exact (raiseWatermarkMax_raised t _ _ _).extends

end

theorem applyAll_importStatements_extends (gvrHex : String) (parsed : List ParsedValidator) (t : Tables) :
    t.Extends (applyAll (importStatements gvrHex parsed) t) :=
  applyAll_invariant (P := fun t' => t.Extends t')
    (fun _ hmem t' ht' => ht'.trans (importStatements_extends hmem t')) (.refl t)

/-! ### Values below `2 ^ 63` -/

structure ParsedValidator.Small (validator : ParsedValidator) : Prop where
  attestations : ∀ a ∈ validator.attestations, a.sourceEpoch < 2 ^ 63 ∧ a.targetEpoch < 2 ^ 63
  blocks : ∀ b ∈ validator.blocks, b.slot < 2 ^ 63

instance (validator : ParsedValidator) : Decidable validator.Small :=
  decidable_of_iff ((∀ a ∈ validator.attestations, a.sourceEpoch < 2 ^ 63 ∧ a.targetEpoch < 2 ^ 63) ∧
    ∀ b ∈ validator.blocks, b.slot < 2 ^ 63) ⟨fun h => ⟨h.1, h.2⟩, fun h => ⟨h.1, h.2⟩⟩

def InterchangeFormat.Small (file : InterchangeFormat) : Prop :=
  ∀ parsed, parseInterchange file = .ok parsed → ∀ validator ∈ parsed, validator.Small

def ParsedValidator.values (validator : ParsedValidator) : WatermarkKind → List Nat
  | .block => validator.blocks.map (·.slot)
  | .attestationSource => validator.attestations.map (·.sourceEpoch)
  | .attestationTarget => validator.attestations.map (·.targetEpoch)

theorem parseValidator_maxOf {record : ValidatorRecord} (h : parseValidator record = .ok validator)
    (kind : WatermarkKind) : validator.maxOf kind = (validator.values kind).max? := by
  obtain ⟨-, -, -, hsource, htarget, hslot⟩ := parseValidator_ok h
  cases kind with
  | block => exact hslot
  | attestationSource => exact hsource
  | attestationTarget => exact htarget

theorem ParsedValidator.Small.values (h : validator.Small) {kind : WatermarkKind} {n : Nat}
    (hn : n ∈ validator.values kind) : n < 2 ^ 63 := by
  cases kind with
  | block =>
    obtain ⟨block, hb, rfl⟩ := mem_map.mp hn
    exact h.blocks block hb
  | attestationSource =>
    obtain ⟨attestation, ha, rfl⟩ := mem_map.mp hn
    exact (h.attestations attestation ha).1
  | attestationTarget =>
    obtain ⟨attestation, ha, rfl⟩ := mem_map.mp hn
    exact (h.attestations attestation ha).2

section

variable {file : InterchangeFormat} {parsed : List ParsedValidator}

theorem Tables.Small.applyAll_importStatements (hsmall : t.Small) (hfile : file.Small)
    (hparse : parseInterchange file = .ok parsed) (gvrHex : String) :
    (applyAll (importStatements gvrHex parsed) t).Small := by
  refine import_invariant (fun t t' hstep ht => ?_) hsmall
  cases hstep with
  | kept => exact ht
  | attestation hvalidator ha hrow =>
    obtain ⟨hs, ht'⟩ := (hfile parsed hparse _ hvalidator).attestations _ ha
    refine ⟨forall_mem_append.mpr ⟨ht.attestations, forall_mem_singleton.mpr ?_⟩, ht.blocks, ht.watermarks⟩
    exact hrow ▸ ⟨smallInt_asI64 hs, smallInt_asI64 ht'⟩
  | block hvalidator hb hrow =>
    have hslot := (hfile parsed hparse _ hvalidator).blocks _ hb
    refine ⟨ht.attestations, forall_mem_append.mpr ⟨ht.blocks, forall_mem_singleton.mpr ?_⟩, ht.watermarks⟩
    exact hrow ▸ smallInt_asI64 hslot
  | raised hvalidator hmax =>
    obtain ⟨record, -, hrecord⟩ := exists_of_mem_mapM hparse hvalidator
    rw [parseValidator_maxOf hrecord] at hmax
    exact ht.raiseWatermarkMax ((hfile parsed hparse _ hvalidator).values (max?_mem hmax))

/-! ### The floors an import leaves -/

def RaisedTo (parsed : List ParsedValidator) (pubkey : String) (kind : WatermarkKind) (n : Nat) : Prop :=
  ∃ validator ∈ parsed, validator.pubkey = pubkey ∧ validator.maxOf kind = some n

section

variable {kind : WatermarkKind} {n : Nat} {pubkey : String}

theorem mem_watermarkStatements_of_maxOf {record : ValidatorRecord} (hv : parseValidator record = .ok validator)
    (h : validator.maxOf kind = some n) :
    (fun t => raiseWatermarkMax t validator.pubkey kind n) ∈ watermarkStatements validator := by
  obtain ⟨-, -, -, hsource, htarget, -⟩ := parseValidator_ok hv
  have hboth : validator.maxSource.isSome = validator.maxTarget.isSome := by
    rw [hsource, htarget, Bool.eq_iff_iff, isSome_max?_iff, isSome_max?_iff]
    simp
  cases kind with
  | block =>
    change validator.maxSlot = some n at h
    simp [watermarkStatements, h]
  | attestationSource =>
    change validator.maxSource = some n at h
    rw [h] at hboth
    obtain ⟨target, ht⟩ := Option.isSome_iff_exists.mp hboth.symm
    simp [watermarkStatements, h, ht]
  | attestationTarget =>
    change validator.maxTarget = some n at h
    rw [h] at hboth
    obtain ⟨source, hs⟩ := Option.isSome_iff_exists.mp hboth
    simp [watermarkStatements, h, hs]

theorem import_raised (hparse : parseInterchange file = .ok parsed) (h : RaisedTo parsed pubkey kind n)
    (gvrHex : String) (t : Tables) :
    ∃ wm, (applyAll (importStatements gvrHex parsed) t).watermarks.lookup (pubkey, kind) = some wm ∧
      asI64 n ≤ wm := by
  obtain ⟨validator, hvalidator, rfl, hmax⟩ := h
  obtain ⟨record, -, hv⟩ := exists_of_mem_mapM hparse hvalidator
  have hmem := mem_watermarkStatements_of_maxOf hv hmax
  refine applyAll_establishes (P := fun t : Tables => ∃ wm, t.watermarks.lookup (validator.pubkey, kind) = some wm ∧
      asI64 n ≤ wm) ?_ (mem_flatMap.mpr ⟨validator, hvalidator, mem_append_right _ (mem_append_right _ hmem)⟩)
    (fun t => raiseWatermarkMax_lookup t validator.pubkey kind n) t
  rintro statement hstatement t ⟨wm, hwm, hle⟩
  obtain ⟨wm', hwm', hle'⟩ := (importStatements_extends hstatement t).watermarks _ wm hwm
  exact ⟨wm', hwm', hle.trans hle'⟩

theorem import_lookup_cases (gvrHex : String) (parsed : List ParsedValidator) (t : Tables) {wm : Int}
    (h : (applyAll (importStatements gvrHex parsed) t).watermarks.lookup (pubkey, kind) = some wm) :
    t.watermarks.lookup (pubkey, kind) = some wm ∨ ∃ n, RaisedTo parsed pubkey kind n ∧ wm = asI64 n := by
  refine import_invariant (P := fun t' : Tables => ∀ wm, t'.watermarks.lookup (pubkey, kind) = some wm →
    t.watermarks.lookup (pubkey, kind) = some wm ∨ ∃ n, RaisedTo parsed pubkey kind n ∧ wm = asI64 n)
    (fun t' t'' hstep ht' wm hwm => ?_) (fun _ hwm => .inl hwm) wm h
  cases hstep with
  | kept | attestation | block => exact ht' wm hwm
  | @raised validator kind' n hvalidator hmax =>
    by_cases hkey : (pubkey, kind) = (validator.pubkey, kind')
    · obtain ⟨rfl, rfl⟩ := Prod.mk.inj hkey
      obtain ⟨raised, heq, -, -, hraised⟩ := raiseWatermarkMax_eq t' validator.pubkey kind n
      have hlookup : some raised = some wm := by
        rw [← hwm, heq, Tables.putWatermark_lookup, if_pos rfl]
      obtain rfl := Option.some.inj hlookup
      rcases hraised with hnew | hold
      · exact .inr ⟨n, ⟨validator, hvalidator, rfl, hmax⟩, hnew⟩
      · exact ht' raised hold
    · rw [raiseWatermarkMax_lookup_ne t' n hkey] at hwm
      exact ht' wm hwm

end

section

variable (hfile : file.Small) (hparse : parseInterchange file = .ok parsed) (hvalidator : validator ∈ parsed)

include hfile hparse hvalidator

theorem import_floor (kind : WatermarkKind) {n : Nat} (hn : n ∈ validator.values kind) (gvrHex : String) (t : Tables) :
    ∃ wm, (applyAll (importStatements gvrHex parsed) t).watermarks.lookup (validator.pubkey, kind) = some wm ∧
      asI64 n ≤ wm := by
  obtain ⟨record, -, hrecord⟩ := exists_of_mem_mapM hparse hvalidator
  obtain ⟨max, hmax⟩ := Option.isSome_iff_exists.mp (isSome_max?_iff.mpr (ne_nil_of_mem hn))
  have hraised : RaisedTo parsed validator.pubkey kind max :=
    ⟨validator, hvalidator, rfl, (parseValidator_maxOf hrecord kind).trans hmax⟩
  obtain ⟨wm, hwm, hle⟩ := import_raised hparse hraised gvrHex t
  have hsmall := (hfile parsed hparse validator hvalidator).values (max?_mem hmax)
  exact ⟨wm, hwm, (asI64_mono hsmall ((max?_eq_some_iff.mp hmax).2 n hn)).trans hle⟩

theorem import_covers {a : ParsedAttestation} (ha : a ∈ validator.attestations) (gvrHex : String) (t : Tables) :
    ((applyAll (importStatements gvrHex parsed) t).floor validator.pubkey).Covers
      ⟨asI64 a.sourceEpoch, asI64 a.targetEpoch⟩ :=
  ⟨import_floor hfile hparse hvalidator .attestationSource (mem_map_of_mem ha) gvrHex t,
    import_floor hfile hparse hvalidator .attestationTarget (mem_map_of_mem ha) gvrHex t⟩

theorem import_coversBlock {b : ParsedBlock} (hb : b ∈ validator.blocks) (gvrHex : String) (t : Tables) :
    (applyAll (importStatements gvrHex parsed) t).BlockCovered validator.pubkey (asI64 b.slot) :=
  import_floor hfile hparse hvalidator .block (mem_map_of_mem hb) gvrHex t

theorem not_accepted_of_imported {a : ParsedAttestation}
    (ha : a ∈ validator.attestations) (gvrHex : String) (hsmall : t.Small)
    {candidate : AttestationCandidate} {strict : Bool} {verdict : AttestationVerdict}
    (h : candidate.sourceEpoch < a.sourceEpoch ∨ candidate.targetEpoch ≤ a.targetEpoch) :
    ¬ AttestationAccepted (applyAll (importStatements gvrHex parsed) t) validator.pubkey candidate strict
      verdict := by
  have hsmall' := hsmall.applyAll_importStatements hfile hparse gvrHex
  have hv := (hfile parsed hparse validator hvalidator).attestations a ha
  obtain ⟨⟨ws, hws, hsle⟩, wt, hwt, htle⟩ := import_covers hfile hparse hvalidator ha gvrHex t
  rcases h with hlt | hle
  · have hbelow := hlt.trans_le (le_asU64 hv.1 (hsmall'.watermarks _ _ hws) hsle)
    exact AttestationRefusal.not_accepted (.belowSource hws hbelow)
  · have hbelow := hle.trans (le_asU64 hv.2 (hsmall'.watermarks _ _ hwt) htle)
    exact AttestationRefusal.not_accepted (.belowTarget hwt hbelow)

theorem not_accepted_of_imported_block {b : ParsedBlock} (hb : b ∈ validator.blocks) (gvrHex : String)
    (hsmall : t.Small) {candidate : BlockCandidate} {strict : Bool}
    {verdict : BlockVerdict} (h : candidate.slot ≤ b.slot) :
    ¬ BlockAccepted (applyAll (importStatements gvrHex parsed) t) validator.pubkey candidate strict
      verdict := by
  have hsmall' := hsmall.applyAll_importStatements hfile hparse gvrHex
  have hv := (hfile parsed hparse validator hvalidator).blocks b hb
  obtain ⟨wm, hwm, hle⟩ := import_coversBlock hfile hparse hvalidator hb gvrHex t
  have hbelow := h.trans (le_asU64 hv (hsmall'.watermarks _ _ hwm) hle)
  exact BlockRefusal.not_accepted (.belowWatermark hwm hbelow)

end

end

/-! ### Refusals survive -/

open Tables

theorem Tables.Extends.rowAtTarget {t' : Tables} (h : t.Extends t') {pubkey : String} {target : Int}
    {row : AttestationRow} (hrow : t.rowAtTarget pubkey target = some row) :
    t'.rowAtTarget pubkey target = some row := by
  obtain ⟨added, heq, -⟩ := h.attestations
  rw [Tables.rowAtTarget, Tables.attestationsOf, heq, filter_append, find?_append]
  exact Option.or_eq_some_iff.mpr (.inl hrow)

theorem Tables.Extends.rowAtSlot {t' : Tables} (h : t.Extends t') {pubkey : String} {slot : Int}
    {row : BlockRow} (hrow : t.rowAtSlot pubkey slot = some row) :
    t'.rowAtSlot pubkey slot = some row := by
  obtain ⟨added, heq, -⟩ := h.blocks
  rw [Tables.rowAtSlot, Tables.blocksOf, heq, filter_append, find?_append]
  exact Option.or_eq_some_iff.mpr (.inl hrow)

section

variable {t' : Tables} {pubkey : String} {strict : Bool} {e : SlashingError} (hext : t.Extends t')
  (hsmall : t.Small) (hsmall' : t'.Small)

include hext hsmall hsmall'

theorem Tables.Extends.floor_le {key : String × WatermarkKind} {wm : Int} (hwm : t.watermarks.lookup key = some wm) :
    ∃ wm', t'.watermarks.lookup key = some wm' ∧ asU64 wm ≤ asU64 wm' := by
  obtain ⟨wm', hwm', hle⟩ := hext.watermarks key wm hwm
  exact ⟨wm', hwm', asU64_mono (hsmall.watermarks _ _ hwm) (hsmall'.watermarks _ _ hwm') hle⟩

theorem AttestationRefusal.persists {candidate : AttestationCandidate}
    (href : AttestationRefusal t pubkey candidate strict e) (hmin : e.isBelowMinimum = false) :
    ∃ e', AttestationRefusal t' pubkey candidate strict e' := by
  cases href with
  | belowSource hwm hlt =>
    obtain ⟨ws', hwm', hle⟩ := hext.floor_le hsmall hsmall' hwm
    exact ⟨_, .belowSource hwm' (hlt.trans_le hle)⟩
  | belowTarget hwm hle =>
    obtain ⟨wt', hwm', hle'⟩ := hext.floor_le hsmall hsmall' hwm
    exact ⟨_, .belowTarget hwm' (hle.trans hle')⟩
  | doubleVote hrow hne => exact ⟨_, .doubleVote (hext.rowAtTarget hrow) hne⟩
  | surrounding hrow hpk hsurr => exact ⟨_, .surrounding (hext.attestations.subset hrow) hpk hsurr⟩
  | surrounded hrow hpk hsurr => exact ⟨_, .surrounded (hext.attestations.subset hrow) hpk hsurr⟩
  | belowMinimum => cases hmin

theorem BlockRefusal.persists {candidate : BlockCandidate} (href : BlockRefusal t pubkey candidate strict e)
    (hmin : e.isBelowMinimum = false) : ∃ e', BlockRefusal t' pubkey candidate strict e' := by
  cases href with
  | belowWatermark hwm hle =>
    obtain ⟨wm', hwm', hle'⟩ := hext.floor_le hsmall hsmall' hwm
    exact ⟨_, .belowWatermark hwm' (hle.trans hle')⟩
  | doubleProposal hrow hne => exact ⟨_, .doubleProposal (hext.rowAtSlot hrow) hne⟩
  | belowMinimum => cases hmin

end

theorem checkGvrBeforeLock_congr {t' : Tables} (h : t'.metadataGvr = t.metadataGvr) (gvr : Root) :
    checkGvrBeforeLock t' gvr = checkGvrBeforeLock t gvr := by
  unfold checkGvrBeforeLock pinnedGvr
  rw [h]

section

variable {db : SlashingDb} {t' : Tables} {pubkeyHex : String} {signingRootHex : Option String}
  {signGvr : Root} {e : SlashingError}

/-- A staging that fails goes on to fail, if its check does. -/
theorem staged_extends {α β : Type} {check check' : Except SlashingError α} {staged : α → β}
    (hmeta : t'.metadataGvr = t.metadataGvr) (hcheck : check = .error e → ∀ verdict, check' ≠ .ok verdict)
    (h : (checkGvrBeforeLock t signGvr >>= fun _ => check >>= fun verdict => .ok (staged verdict)) = .error e) :
    ∃ e', (checkGvrBeforeLock t' signGvr >>= fun _ => check' >>= fun verdict => .ok (staged verdict)) = .error e' := by
  rw [checkGvrBeforeLock_congr hmeta]
  cases hgvr : checkGvrBeforeLock t signGvr with
  | error e' => exact ⟨e', rfl⟩
  | ok _ =>
    rw [hgvr] at h
    cases check with
    | ok verdict => cases h
    | error =>
      cases h
      cases check' with
      | error e' => exact ⟨e', rfl⟩
      | ok verdict => exact absurd rfl (hcheck rfl verdict)

variable (hext : t.Extends t') (hsmall : t.Small) (hsmall' : t'.Small)

include hext hsmall hsmall'

theorem stageAttestation_extends {source target : Nat}
    (h : stageAttestation db t pubkeyHex source target signingRootHex signGvr = .error e)
    (hmin : e.isBelowMinimum = false) :
    ∃ e', stageAttestation db t' pubkeyHex source target signingRootHex signGvr = .error e' := by
  refine staged_extends hext.metadataGvr (fun herror verdict hok => ?_) h
  obtain ⟨e', href⟩ := (checkAttestation_error herror).persists hext hsmall hsmall' hmin
  exact href.not_accepted (checkAttestation_ok hok)

theorem stageBlock_extends {slot : Nat} (h : stageBlock db t pubkeyHex slot signingRootHex signGvr = .error e)
    (hmin : e.isBelowMinimum = false) :
    ∃ e', stageBlock db t' pubkeyHex slot signingRootHex signGvr = .error e' := by
  refine staged_extends hext.metadataGvr (fun herror verdict hok => ?_) h
  obtain ⟨e', href⟩ := (checkBlock_error herror).persists hext hsmall hsmall' hmin
  exact href.not_accepted (checkBlock_ok hok)

end

/-- **Import is monotone.** Rows are only appended, at free keys; no refusal is lost but those by the
minimum; and every value of the file ends under a floor, dropped rows and repeated validators included. A
failed import changes nothing. -/
theorem import_monotone (faults : ImportFaults) {t : Tables} (hsmall : t.Small)
    {file : InterchangeFormat} (hfile : file.Small) (gvr : Root) {result : Except SlashingError Unit}
    {c : Conn Tables} (h : importInterchange faults ⟨t, none⟩ file gvr = (result, c)) :
    c.txn = none ∧ (∀ e, result = .error e → c.committed = t) ∧ (result = .ok () →
      (AppendsFresh AttestationRow.key t.attestations c.committed.attestations ∧
        AppendsFresh BlockRow.key t.blocks c.committed.blocks) ∧ (∀ db pubkeyHex source target signingRoot signGvr e,
        stageAttestation db t pubkeyHex source target signingRoot signGvr = .error e → e.isBelowMinimum = false →
        ∃ e', stageAttestation db c.committed pubkeyHex source target signingRoot signGvr = .error e') ∧
      (∀ db pubkeyHex slot signingRoot signGvr e,
        stageBlock db t pubkeyHex slot signingRoot signGvr = .error e → e.isBelowMinimum = false →
        ∃ e', stageBlock db c.committed pubkeyHex slot signingRoot signGvr = .error e') ∧
      (∀ record ∈ file.data, ∀ attestation ∈ record.signedAttestations, ∀ n db pubkeyHex source target
        signingRoot signGvr, normalizePubkey pubkeyHex = normalizePubkey record.pubkey →
        (parseU64 attestation.targetEpoch = some n ∧ target ≤ n) ∨
          (parseU64 attestation.sourceEpoch = some n ∧ source < n) →
        ∃ e, stageAttestation db c.committed pubkeyHex source target signingRoot signGvr = .error e) ∧
      (∀ record ∈ file.data, ∀ block ∈ record.signedBlocks, ∀ n db pubkeyHex slot signingRoot signGvr,
        normalizePubkey pubkeyHex = normalizePubkey record.pubkey → parseU64 block.slot = some n → slot ≤ n →
        ∃ e, stageBlock db c.committed pubkeyHex slot signingRoot signGvr = .error e)) := by
  rcases importInterchange_cases faults (c := ⟨t, none⟩) rfl file gvr with ⟨e, h'⟩ | ⟨parsed, hparse, h'⟩
  · cases h'.symm.trans h
    exact ⟨rfl, fun _ _ => rfl, fun hok => by cases hok⟩
  cases h'.symm.trans h
  have hext := applyAll_importStatements_extends (rootToHex gvr) parsed t
  have hsmall' := hsmall.applyAll_importStatements hfile hparse (rootToHex gvr)
  refine ⟨rfl, fun e he => (by cases he), fun _ => ⟨⟨hext.attestations, hext.blocks⟩, ?_, ?_, ?_, ?_⟩⟩
  · intro db pubkeyHex source target signingRoot signGvr e hstage hmin
    exact stageAttestation_extends hext hsmall hsmall' hstage hmin
  · intro db pubkeyHex slot signingRoot signGvr e hstage hmin
    exact stageBlock_extends hext hsmall hsmall' hstage hmin
  · intro record hrecord attestation hatt n db pubkeyHex source target signingRoot signGvr hpk hn
    suffices hnot : _ from (stageAttestation_refused hnot).imp fun _ => And.left
    intro verdict
    obtain ⟨validator, hvalidator, hv⟩ := exists_result_of_mem hparse hrecord
    obtain ⟨hatts, -, hkey, -⟩ := parseValidator_ok hv
    obtain ⟨a, ha, haparse⟩ := exists_result_of_mem hatts hatt
    obtain ⟨hsource, htarget, -⟩ := parseAttestation_ok.mp haparse
    have hbelow : source < a.sourceEpoch ∨ target ≤ a.targetEpoch := by
      rcases hn with ⟨hn, hle⟩ | ⟨hn, hlt⟩
      · exact .inr (hle.trans_eq (Option.some.inj (hn.symm.trans htarget)))
      · exact .inl (hlt.trans_eq (Option.some.inj (hn.symm.trans hsource)))
    rw [hpk, ← hkey]
    exact not_accepted_of_imported hfile hparse hvalidator ha (rootToHex gvr) hsmall hbelow
  · intro record hrecord block hblock n db pubkeyHex slot signingRoot signGvr hpk hn hle
    suffices hnot : _ from (stageBlock_refused hnot).imp fun _ => And.left
    intro verdict
    obtain ⟨validator, hvalidator, hv⟩ := exists_result_of_mem hparse hrecord
    obtain ⟨-, hblocks, hkey, -⟩ := parseValidator_ok hv
    obtain ⟨b, hb, hbparse⟩ := exists_result_of_mem hblocks hblock
    obtain ⟨hslot, -⟩ := parseBlock_ok.mp hbparse
    have hbelow : slot ≤ b.slot := hle.trans_eq (Option.some.inj (hn.symm.trans hslot))
    rw [hpk, ← hkey]
    exact not_accepted_of_imported_block hfile hparse hvalidator hb (rootToHex gvr) hsmall hbelow

/-- One validator in two records and two spellings; its attestation `(3, 5)` meets an occupied target. -/
def conflictingFile : InterchangeFormat :=
  ⟨⟨"5", rootToHex zeroRoot⟩, [⟨"0xAA", [], [⟨"3", "5", none⟩]⟩, ⟨"aa", [⟨"9", none⟩], [⟨"1", "4", some "x"⟩]⟩]⟩

def occupiedTables : Tables :=
  { Tables.empty with attestations := [⟨auditOrigin, "0xaa", 0, 5, some "y", none⟩] }

theorem conflictingFile_parsed : parseInterchange conflictingFile = .ok
    [⟨"0xaa", [⟨3, 5, none⟩], [], some 3, some 5, none⟩,
      ⟨"0xaa", [⟨1, 4, some "x"⟩], [⟨9, none⟩], some 1, some 4, some 9⟩] := by
  decide +kernel

theorem conflictingFile_small : conflictingFile.Small := by
  intro parsed h
  cases conflictingFile_parsed.symm.trans h
  decide

/-- The dropped attestation still stands against a later vote from source 2. -/
theorem import_monotone_sample :
    (importInterchange .none ⟨occupiedTables, none⟩ conflictingFile zeroRoot).2.committed.attestations.length = 2 ∧
      ∃ e, stageAttestation ⟨true, 0⟩
        (importInterchange .none ⟨occupiedTables, none⟩ conflictingFile zeroRoot).2.committed "AA" 2 8
        (some "z") zeroRoot = .error e :=
  ⟨by decide +kernel, ((import_monotone .none (t := occupiedTables) ⟨by decide, by decide, small_empty.watermarks⟩
      conflictingFile_small zeroRoot rfl).2.2 (by decide +kernel)).2.2.2.1 ⟨"0xAA", [], [⟨"3", "5", none⟩]⟩
      (by decide) ⟨"3", "5", none⟩ (by decide) 3 ⟨true, 0⟩ "AA" 2 8 (some "z") zeroRoot
      (by decide +kernel) (.inr ⟨by decide, by decide⟩)⟩

end Rvc.Slashing
