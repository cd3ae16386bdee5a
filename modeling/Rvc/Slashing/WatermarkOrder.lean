import Rvc.Slashing.Operations
import Rvc.Slashing.Prune

/-!
# The order of watermarks over the whole `u64` range

A watermark is read unsigned. `set_block_watermark` and `set_attestation_watermark` compare what they read; an
imported file and a prune raise by SQLite's `MAX`, which compares the stored integers signed, and there the upper
half of the `u64` range comes first. So a file that holds a slot of the lower half lowers a watermark of the upper
half, and one that holds a slot of the upper half does not raise a watermark of the lower half at all. As long as
the values that meet in one `MAX` lie in one half, watermarks only rise: `Operation.Aligned` is this condition on
a call and the tables before it, and for an import and a prune it is necessary too (`Operation.neverLowers_iff`).
-/

namespace Rvc.Slashing

open Rvc.Lib Rvc.EthTypes Rvc.Observability List Tables Operation

/-! ### Readings -/

def Tables.AtLeast (t : Tables) (pubkey : String) (kind : WatermarkKind) (n : Nat) : Prop :=
  ∃ value, readWatermark t pubkey kind = some value ∧ n ≤ value

/-- Every watermark of `t` reads in `t'` at least what it reads in `t`. -/
def Tables.ReadsUp (t t' : Tables) : Prop :=
  ∀ pubkey kind value, readWatermark t pubkey kind = some value → t'.AtLeast pubkey kind value

variable {t t' : Tables}

theorem Tables.ReadsUp.of_eq (h : t'.watermarks = t.watermarks) : t.ReadsUp t' :=
  fun pubkey kind value hread => ⟨value, by rw [readWatermark, h]; exact hread, le_rfl⟩

theorem Tables.ReadsUp.trans {t'' : Tables} (h : t.ReadsUp t') (h' : t'.ReadsUp t'') : t.ReadsUp t'' := by
  intro pubkey kind value hread
  obtain ⟨value', hread', hle⟩ := h pubkey kind value hread
  obtain ⟨value'', hread'', hle'⟩ := h' pubkey kind value' hread'
  exact ⟨value'', hread'', hle.trans hle'⟩

structure Tables.InRange (t : Tables) : Prop where
  sources : ∀ row ∈ t.attestations, InI64 row.sourceEpoch
  watermarks : ∀ key wm, t.watermarks.lookup key = some wm → InI64 wm

variable {kind : WatermarkKind} {pubkey : String}

theorem Tables.InRange.putWatermark (h : t.InRange) {value : Int}
    (hvalue : InI64 value) : (t.putWatermark pubkey kind value).InRange := by
  refine ⟨h.sources, fun key wm hwm => ?_⟩
  rw [putWatermark_lookup] at hwm
  split at hwm
  · exact Option.some.inj hwm ▸ hvalue
  · exact h.watermarks key wm hwm

theorem Tables.InRange.raiseWatermarkMax (h : t.InRange) (pubkey : String) (kind : WatermarkKind)
    (value : Nat) : (raiseWatermarkMax t pubkey kind value).InRange := by
  obtain ⟨wm, heq, -, -, hwm | hwm⟩ := raiseWatermarkMax_eq t pubkey kind value
  · exact heq ▸ h.putWatermark (hwm ▸ inI64_asI64 value)
  · exact heq ▸ h.putWatermark (h.watermarks _ _ hwm)

theorem Tables.InRange.raiseSourceBound (h : t.InRange) (floor : String × Int) :
    (raiseSourceBound t floor).InRange := by
  unfold Slashing.raiseSourceBound
  split
  · exact h.raiseWatermarkMax _ _ _
  · exact h

theorem Tables.InRange.foldl_raiseSourceBound (h : t.InRange) (floors : List (String × Int)) :
    (floors.foldl Slashing.raiseSourceBound t).InRange := by
  induction floors generalizing t with
  | nil => exact h
  | cons floor floors ih => exact ih (h.raiseSourceBound floor)

theorem raiseWatermark_readsUp {value : Nat}
    (hvalue : value < 2 ^ 64) (h : raiseWatermark t pubkey kind value = .ok t') : t.ReadsUp t' := by
  obtain ⟨rfl, hle⟩ := raiseWatermark_ok h
  intro other kind' current hread
  unfold Tables.AtLeast readWatermark
  rw [putWatermark_lookup]
  split
  · next hkey =>
    cases hkey
    exact ⟨value, by rw [Option.map_some, asU64_asI64_of_lt hvalue], hle current hread⟩
  · exact ⟨current, hread, le_rfl⟩

/-! ### The values of a file -/

def ValidatorRecord.texts (record : ValidatorRecord) : WatermarkKind → List String
  | .block => record.signedBlocks.map (·.slot)
  | .attestationSource => record.signedAttestations.map (·.sourceEpoch)
  | .attestationTarget => record.signedAttestations.map (·.targetEpoch)

def InterchangeFormat.Holds (file : InterchangeFormat) (pubkey : String) (kind : WatermarkKind) (n : Nat) : Prop :=
  ∃ record ∈ file.data, normalizePubkey record.pubkey = pubkey ∧ ∃ text ∈ record.texts kind, parseU64 text = some n

variable {n : Nat}

section

variable {record : ValidatorRecord} {validator : ParsedValidator} (h : parseValidator record = .ok validator)

include h

theorem parseValidator_values (kind : WatermarkKind) :
    (record.texts kind).map parseU64 = (validator.values kind).map some := by
  obtain ⟨hattestations, hblocks, -⟩ := parseValidator_ok h
  cases kind with
  | block =>
    simp only [ValidatorRecord.texts, ParsedValidator.values, map_map]
    exact map_eq_of_mapM hblocks fun _ _ hparse => (parseBlock_ok.mp hparse).1
  | attestationSource =>
    simp only [ValidatorRecord.texts, ParsedValidator.values, map_map]
    exact map_eq_of_mapM hattestations fun _ _ hparse => (parseAttestation_ok.mp hparse).1
  | attestationTarget =>
    simp only [ValidatorRecord.texts, ParsedValidator.values, map_map]
    exact map_eq_of_mapM hattestations fun _ _ hparse => (parseAttestation_ok.mp hparse).2.1

theorem mem_values_iff : n ∈ validator.values kind ↔ ∃ text ∈ record.texts kind, parseU64 text = some n := by
  have hmem : some n ∈ (record.texts kind).map parseU64 ↔ some n ∈ (validator.values kind).map some := by
    rw [parseValidator_values h]
  simpa using hmem.symm

end

section

variable {file : InterchangeFormat} {parsed : List ParsedValidator}

section

variable (hparse : parseInterchange file = .ok parsed)

include hparse

theorem holds_iff :
    file.Holds pubkey kind n ↔ ∃ validator ∈ parsed, validator.pubkey = pubkey ∧ n ∈ validator.values kind := by
  constructor
  · rintro ⟨record, hrecord, hpk, htext⟩
    obtain ⟨validator, hvalidator, hv⟩ := exists_result_of_mem hparse hrecord
    obtain ⟨-, -, hkey, -⟩ := parseValidator_ok hv
    exact ⟨validator, hvalidator, hkey.trans hpk, (mem_values_iff hv).mpr htext⟩
  · rintro ⟨validator, hvalidator, hpk, hn⟩
    obtain ⟨record, hrecord, hv⟩ := exists_of_mem_mapM hparse hvalidator
    obtain ⟨-, -, hkey, -⟩ := parseValidator_ok hv
    exact ⟨record, hrecord, hkey.symm.trans hpk, (mem_values_iff hv).mp hn⟩

theorem RaisedTo.holds (h : RaisedTo parsed pubkey kind n) : file.Holds pubkey kind n := by
  obtain ⟨validator, hvalidator, hpk, hmax⟩ := h
  obtain ⟨record, -, hv⟩ := exists_of_mem_mapM hparse hvalidator
  rw [parseValidator_maxOf hv] at hmax
  exact (holds_iff hparse).mpr ⟨validator, hvalidator, hpk, max?_mem hmax⟩

theorem raisedTo_of_holds (h : file.Holds pubkey kind n) : ∃ max, RaisedTo parsed pubkey kind max ∧ n ≤ max := by
  obtain ⟨validator, hvalidator, hpk, hn⟩ := (holds_iff hparse).mp h
  obtain ⟨record, -, hv⟩ := exists_of_mem_mapM hparse hvalidator
  obtain ⟨max, hmax⟩ := Option.isSome_iff_exists.mp (isSome_max?_iff.mpr (ne_nil_of_mem hn))
  exact ⟨max, ⟨validator, hvalidator, hpk, (parseValidator_maxOf hv kind).trans hmax⟩,
    (max?_eq_some_iff.mp hmax).2 n hn⟩

end

theorem InterchangeFormat.Holds.lt (h : file.Holds pubkey kind n) : n < 2 ^ 64 := by
  obtain ⟨record, -, -, text, -, hparse⟩ := h
  exact parseU64_lt hparse

/-! ### What an import leaves -/

/-- The values that meet in the watermark of an import: what it reads before, and what it is raised to. -/
def ImportMeets (t : Tables) (parsed : List ParsedValidator) (pubkey : String) (kind : WatermarkKind) (n : Nat) :
    Prop :=
  readWatermark t pubkey kind = some n ∨ RaisedTo parsed pubkey kind n

/-- The watermark after an import reads at least every value that met there exactly when they are in one half. -/
theorem import_atLeast_iff (ht : t.InRange) (hparse : parseInterchange file = .ok parsed) (gvrHex : String)
    (pubkey : String) (kind : WatermarkKind) : (∀ n, ImportMeets t parsed pubkey kind n →
        (applyAll (importStatements gvrHex parsed) t).AtLeast pubkey kind n) ↔
      ∀ m n, ImportMeets t parsed pubkey kind m → ImportMeets t parsed pubkey kind n →
        (2 ^ 63 ≤ m ↔ 2 ^ 63 ≤ n) := by
  have hlt : ∀ n, ImportMeets t parsed pubkey kind n → n < 2 ^ 64 := by
    rintro n (hread | hraised)
    · obtain ⟨wm, -, rfl⟩ := readWatermark_some hread
      exact asU64_lt wm
    · exact (hraised.holds hparse).lt
  have hsigned : ∀ n, ImportMeets t parsed pubkey kind n → ∃ wm,
      (applyAll (importStatements gvrHex parsed) t).watermarks.lookup (pubkey, kind) = some wm ∧ asI64 n ≤ wm := by
    rintro n (hread | hraised)
    · obtain ⟨wm, hwm, rfl⟩ := readWatermark_some hread
      obtain ⟨wm', hwm', hle⟩ := (applyAll_importStatements_extends gvrHex parsed t).watermarks _ wm hwm
      exact ⟨wm', hwm', by rwa [asI64_asU64 (ht.watermarks _ _ hwm)]⟩
    · exact import_raised hparse hraised gvrHex t
  cases hfinal : (applyAll (importStatements gvrHex parsed) t).watermarks.lookup (pubkey, kind) with
  | none =>
    -- nothing met here
    have hnone : ∀ n, ¬ ImportMeets t parsed pubkey kind n := fun n hn => by
      obtain ⟨wm, hwm, -⟩ := hsigned n hn
      cases hfinal.symm.trans hwm
    exact ⟨fun _ m _ hm => absurd hm (hnone m), fun _ n hn => absurd hn (hnone n)⟩
  | some wm =>
    have hrange : InI64 wm ∧ ImportMeets t parsed pubkey kind (asU64 wm) := by
      rcases import_lookup_cases gvrHex parsed t hfinal with hold | ⟨n, hn, rfl⟩
      · exact ⟨ht.watermarks _ _ hold, .inl (readWatermark_of_lookup hold)⟩
      · exact ⟨inI64_asI64 n, .inr (by rwa [asU64_asI64_of_lt (hn.holds hparse).lt])⟩
    have hmax : ∀ n, ImportMeets t parsed pubkey kind n → asI64 n ≤ asI64 (asU64 wm) := fun n hn => by
      obtain ⟨wm', hwm', hle⟩ := hsigned n hn
      cases hfinal.symm.trans hwm'
      rwa [asI64_asU64 hrange.1]
    have hread : ∀ n, (applyAll (importStatements gvrHex parsed) t).AtLeast pubkey kind n ↔ n ≤ asU64 wm := fun n => by
      simp [Tables.AtLeast, readWatermark_of_lookup hfinal]
    simp only [hread]
    exact signedMax_isMax_iff hlt hrange.2 hmax

end

/-! ### What a prune leaves -/

def pruneSource (t : Tables) (pubkey : String) : Option Int :=
  (t.watermarks.lookup (pubkey, .attestationTarget)).bind (maxSourceBelow t pubkey)

def raisedBy (current value : Option Int) : Option Int :=
  match value with
  | some value => some (raisedTo current value)
  | none => current

theorem raisedBy_raisedBy (current value : Option Int) : raisedBy
    (raisedBy current value) value = raisedBy current value := by
  cases value with
  | none => rfl
  | some value => cases current <;> simp [raisedBy, raisedTo]

section

theorem pruneSource_raiseSourceBound (t : Tables) (floor : String × Int) (pubkey : String) :
    pruneSource (raiseSourceBound t floor) pubkey = pruneSource t pubkey := by
  have hrows : (raiseSourceBound t floor).attestations = t.attestations :=
    (raiseSourceBound_raised t floor).attestations
  unfold pruneSource maxSourceBelow Tables.attestationsOf
  rw [raiseSourceBound_lookup t floor (by simp), hrows]

theorem raiseSourceBound_source (ht : t.InRange) {floor : String × Int}
    (hfloor : t.watermarks.lookup (floor.1, .attestationTarget) = some floor.2) (pubkey : String) :
    (raiseSourceBound t floor).watermarks.lookup (pubkey, .attestationSource) =
      if pubkey = floor.1 then raisedBy (t.watermarks.lookup (pubkey, .attestationSource)) (pruneSource t pubkey)
      else t.watermarks.lookup (pubkey, .attestationSource) := by
  split
  · next hpk =>
    subst hpk
    have hsource : pruneSource t floor.1 = maxSourceBelow t floor.1 floor.2 := by rw [pruneSource, hfloor]; rfl
    rw [hsource]
    unfold raiseSourceBound
    cases hmax : maxSourceBelow t floor.1 floor.2 with
    | none => rfl
    | some maxSource =>
      obtain ⟨row, hrow, rfl⟩ := mem_map.mp (max?_mem hmax)
      have hin := ht.sources row (mem_attestationsOf.mp (mem_filter.mp hrow).1).1
      dsimp only
      rw [raiseWatermarkMax_lookup_self, asI64_asU64 hin]
      rfl
  · next hpk =>
    unfold raiseSourceBound
    split
    · exact raiseWatermarkMax_lookup_ne t _ fun heq => hpk (Prod.mk.inj heq).1
    · rfl

theorem foldl_raiseSourceBound_source {floors : List (String × Int)} (ht : t.InRange)
    (hfloors : ∀ floor ∈ floors, t.watermarks.lookup (floor.1, .attestationTarget) = some floor.2) (pubkey : String) :
    (floors.foldl raiseSourceBound t).watermarks.lookup (pubkey, .attestationSource) =
      if pubkey ∈ floors.map (·.1) then
        raisedBy (t.watermarks.lookup (pubkey, .attestationSource)) (pruneSource t pubkey)
      else t.watermarks.lookup (pubkey, .attestationSource) := by
  induction floors generalizing t with
  | nil => rfl
  | cons floor floors ih =>
    have hfloor := hfloors floor mem_cons_self
    have hrest : ∀ other ∈ floors, (raiseSourceBound t floor).watermarks.lookup (other.1, .attestationTarget) =
        some other.2 := fun other hother => by
      rw [raiseSourceBound_lookup t floor (by simp)]
      exact hfloors other (mem_cons_of_mem _ hother)
    rw [foldl_cons, ih (ht.raiseSourceBound floor) hrest, pruneSource_raiseSourceBound,
      raiseSourceBound_source ht hfloor, map_cons]
    by_cases hfirst : pubkey = floor.1
    · by_cases hlater : floor.1 ∈ floors.map (·.1) <;> simp [hfirst, hlater, raisedBy_raisedBy]
    · have hmem : pubkey ∈ floor.1 :: floors.map (·.1) ↔ pubkey ∈ floors.map (·.1) :=
        mem_cons.trans (or_iff_right hfirst)
      simp only [hfirst, if_false, hmem]

theorem prune_lookup {stats : PruneStats} (ht : t.InRange)
    (h : pruneBelowWatermarks t = .ok (t', stats)) (pubkey : String) :
    t'.watermarks.lookup (pubkey, .attestationSource) =
        raisedBy (t.watermarks.lookup (pubkey, .attestationSource)) (pruneSource t pubkey) ∧
      ∀ kind, kind ≠ .attestationSource →
        t'.watermarks.lookup (pubkey, kind) = t.watermarks.lookup (pubkey, kind) := by
  obtain ⟨-, hwm, -, -⟩ := prune_eq h
  rw [hwm]
  refine ⟨?_, fun kind hkind => foldl_raiseSourceBound_lookup _ _ hkind⟩
  rw [foldl_raiseSourceBound_source ht fun _ => lookup_of_mem_targetFloors]
  split
  · rfl
  · next hnot =>
    -- without a target floor there is nothing to prune
    have hnone : t.watermarks.lookup (pubkey, .attestationTarget) = none := by
      cases hfloor : t.watermarks.lookup (pubkey, .attestationTarget) with
      | none => rfl
      | some wt => exact absurd (mem_map_of_mem (f := (·.1)) (mem_targetFloors hfloor)) hnot
    rw [pruneSource, hnone]
    rfl

end

/-! ### One call -/

namespace Operation

/-- The values that meet in one `MAX` of the call are in one half. The two setters compare unsigned. -/
def Aligned (t : Tables) : Operation → Prop
  | .importFile file gvr => validateInterchangeMetadata file gvr = .ok () →
      ∀ parsed, parseInterchange file = .ok parsed → ∀ pubkey kind m n, ImportMeets t parsed pubkey kind m →
        ImportMeets t parsed pubkey kind n → (2 ^ 63 ≤ m ↔ 2 ^ 63 ≤ n)
  | .prune => ∀ pubkey current source, readWatermark t pubkey .attestationSource = some current →
      pruneSource t pubkey = some source → 2 ^ 63 ≤ current → 2 ^ 63 ≤ asU64 source
  | _ => True

/-- The call lowers no watermark, and an import that succeeds leaves none below a value of its file. -/
structure NeverLowers (db : SlashingDb) (t : Tables) (operation : Operation) : Prop where
  readsUp : t.ReadsUp (operation.run db t).2
  imported : ∀ file gvr, operation = .importFile file gvr → (operation.run db t).1 = .ok () →
    ∀ pubkey kind n, file.Holds pubkey kind n → (operation.run db t).2.AtLeast pubkey kind n

section

variable {db : SlashingDb}

theorem neverLowers_of_watermarks {operation : Operation} (himport : ∀ file gvr, operation ≠ .importFile file gvr)
    (h : t.ReadsUp (operation.run db t).2) : operation.NeverLowers db t :=
  ⟨h, fun file gvr heq => absurd heq (himport file gvr)⟩

theorem neverLowers_of_error {operation : Operation} {e : SlashingError} (h : operation.run db t = (.error e, t)) :
    operation.NeverLowers db t where
  readsUp := by
    rw [h]
    exact .of_eq rfl
  imported _ _ _ hok := by
    rw [h] at hok
    cases hok

theorem importFile_neverLowers_iff (ht : t.InRange) (file : InterchangeFormat) (gvr : Root) :
    (importFile file gvr).NeverLowers db t ↔ (importFile file gvr).Aligned t := by
  cases hmeta : validateInterchangeMetadata file gvr with
  | error e =>
    refine iff_of_true (neverLowers_of_error (e := e) ?_) fun hok => by cases hmeta.symm.trans hok
    simp only [run, importInterchange, hmeta]
  | ok =>
  cases hparse : parseInterchange file with
  | error e =>
    refine iff_of_true (neverLowers_of_error (e := e) ?_) fun _ parsed hok => by cases hparse.symm.trans hok
    simp only [run, importInterchange, hmeta, hparse]
  | ok parsed =>
    have hrun : (importFile file gvr).run db t =
        (.ok (), applyAll (importStatements (rootToHex gvr) parsed) t) := by
      simp only [run, importInterchange_ok hmeta hparse]
    constructor
    · intro h _ parsed' hparse' pubkey kind
      cases hparse.symm.trans hparse'
      refine (import_atLeast_iff ht hparse (rootToHex gvr) pubkey kind).mp fun n hn => ?_
      rcases hn with hread | hraised
      · have hup := h.readsUp pubkey kind n hread
        rwa [hrun] at hup
      · have hcover := h.imported file gvr rfl (by rw [hrun]) pubkey kind n (hraised.holds hparse)
        rwa [hrun] at hcover
    · intro haligned
      have hall : ∀ pubkey kind n, ImportMeets t parsed pubkey kind n →
          ((importFile file gvr).run db t).2.AtLeast pubkey kind n := fun pubkey kind => by
        rw [hrun]
        exact (import_atLeast_iff ht hparse (rootToHex gvr) pubkey kind).mpr (haligned hmeta parsed hparse pubkey kind)
      refine ⟨fun pubkey kind n hread => hall pubkey kind n (.inl hread), fun file' gvr' heq _ pubkey kind n hn => ?_⟩
      obtain ⟨rfl, rfl⟩ := importFile.inj heq
      obtain ⟨top, htop, hle⟩ := raisedTo_of_holds hparse hn
      obtain ⟨value, hread, htop⟩ := hall pubkey kind top (.inr htop)
      exact ⟨value, hread, hle.trans htop⟩

theorem pruneSource_inI64 (ht : t.InRange) {source : Int} (h : pruneSource t pubkey = some source) : InI64 source := by
  obtain ⟨wt, -, hmax⟩ := Option.bind_eq_some_iff.mp h
  obtain ⟨row, hrow, rfl⟩ := mem_map.mp (max?_mem hmax)
  exact ht.sources row (mem_attestationsOf.mp (mem_filter.mp hrow).1).1

theorem prune_readsUp_iff (ht : t.InRange) {stats : PruneStats}
    (h : pruneBelowWatermarks t = .ok (t', stats)) : t.ReadsUp t' ↔ prune.Aligned t := by
  have hraises {pubkey : String} {ws source : Int} (hws : t.watermarks.lookup (pubkey, .attestationSource) = some ws)
      (hsource : pruneSource t pubkey = some source) :
      t'.watermarks.lookup (pubkey, .attestationSource) = some (max ws source) := by
    rw [(prune_lookup ht h pubkey).1, hws, hsource]
    rfl
  constructor
  · intro hup pubkey current source hread hsource hhigh
    obtain ⟨ws, hws, rfl⟩ := readWatermark_some hread
    have hneg := (le_asU64_iff_neg (ht.watermarks _ _ hws)).mp hhigh
    obtain ⟨value, hvalue, hle⟩ := hup pubkey .attestationSource (asU64 ws) hread
    cases (readWatermark_of_lookup (hraises hws hsource)).symm.trans hvalue
    -- were the source in the lower half, it would have replaced the watermark
    by_contra hlow
    have hpos : ¬ source < 0 := fun hsneg => hlow ((le_asU64_iff_neg (pruneSource_inI64 ht hsource)).mpr hsneg)
    rw [max_eq_right (by omega)] at hle
    omega
  · intro haligned pubkey kind value hread
    obtain ⟨ws, hws, rfl⟩ := readWatermark_some hread
    by_cases hkind : kind = .attestationSource
    · subst hkind
      cases hsource : pruneSource t pubkey with
      | none =>
        have hkept : t'.watermarks.lookup (pubkey, .attestationSource) = some ws := by
          rw [(prune_lookup ht h pubkey).1, hws, hsource]
          rfl
        exact ⟨_, readWatermark_of_lookup hkept, le_rfl⟩
      | some source =>
        refine ⟨_, readWatermark_of_lookup (hraises hws hsource), ?_⟩
        rcases le_total source ws with hle | hle
        · rw [max_eq_left hle]
        · rw [max_eq_right hle]
          have hin := pruneSource_inI64 ht hsource
          refine asU64_mono_of_half (ht.watermarks _ _ hws) hin hle ?_
          by_cases hneg : ws < 0
          · have hhigh := (le_asU64_iff_neg (ht.watermarks _ _ hws)).mpr hneg
            exact .inr ((le_asU64_iff_neg hin).mp (haligned pubkey _ source hread hsource hhigh))
          · exact .inl (Int.not_lt.mp hneg)
    · have hkept := (prune_lookup ht h pubkey).2 kind hkind
      exact ⟨_, readWatermark_of_lookup (hkept.trans hws), le_rfl⟩

theorem prune_neverLowers_iff (ht : t.InRange) : prune.NeverLowers db t ↔ prune.Aligned t := by
  have hstep : prune.NeverLowers db t ↔ t.ReadsUp (prune.run db t).2 :=
    ⟨fun h => h.readsUp, neverLowers_of_watermarks nofun⟩
  rw [hstep]
  cases hprune : pruneBelowWatermarks t with
  | ok pruned =>
    have hrun : (prune.run db t).2 = pruned.1 := by simp [run, hprune, inTxn, Except.map]
    rw [hrun]
    exact prune_readsUp_iff ht hprune
  | error e =>
    have hrun : (prune.run db t).2 = t := by simp [run, hprune, inTxn, Except.map]
    have hempty : t.watermarks.entries = [] := by
      unfold pruneBelowWatermarks at hprune
      split at hprune
      · next hnone => exact length_eq_zero_iff.mp hnone
      · cases hprune
    rw [hrun]
    refine iff_of_true (.of_eq rfl) fun pubkey current source hread => ?_
    obtain ⟨ws, hws, -⟩ := readWatermark_some hread
    have hmem := AList.mem_lookup_iff.mp hws
    rw [hempty] at hmem
    cases hmem

/-- The calls without a `MAX` lower nothing: they leave the watermarks, or compare what they read. -/
theorem Effect.readsUp {operation : Operation} (h : Effect db t operation t')
    (himport : ∀ file gvr, operation ≠ .importFile file gvr) (hprune : operation ≠ .prune) : t.ReadsUp t' := by
  cases h with
  | unchanged => exact .of_eq rfl
  | reserved | staged => exact .of_eq afterReserve_watermarks
  | reconciled => exact .of_eq rfl
  | imported => exact absurd rfl (himport _ _)
  | pruned => exact absurd rfl hprune
  | @blockRaised pubkey slot t' hok => exact raiseWatermark_readsUp slot.toNat_lt hok
  | @attestationRaised pubkey sourceEpoch targetEpoch t' hok =>
    obtain ⟨raised, hsource, htarget⟩ := bind_eq_ok.mp hok
    exact (raiseWatermark_readsUp sourceEpoch.toNat_lt hsource).trans
      (raiseWatermark_readsUp targetEpoch.toNat_lt htarget)

/-- **A call never lowers a watermark exactly when it is aligned.** -/
theorem neverLowers_iff (db : SlashingDb) (ht : t.InRange) (operation : Operation) :
    operation.NeverLowers db t ↔ operation.Aligned t := by
  cases operation with
  | importFile file gvr => exact importFile_neverLowers_iff ht file gvr
  | prune => exact prune_neverLowers_iff ht
  | reserve | stage | reconcile | setBlockWatermark | setAttestationWatermark =>
    refine iff_of_true (neverLowers_of_watermarks (by simp) ?_) trivial
    exact (run_effect db t _).readsUp (by simp) (by simp)

theorem run_inRange (ht : t.InRange) (operation : Operation) : (operation.run db t).2.InRange := by
  have heffect := operation.run_effect db t
  generalize (operation.run db t).2 = t' at heffect ⊢
  cases heffect with
  | unchanged => exact ht
  | reserved | staged =>
    refine ⟨fun row hrow => ?_, ?_⟩
    · rcases mem_afterReserve.2 row hrow with hold | his
      · exact ht.sources row hold
      · obtain ⟨source, target, -, -, hsource, -⟩ := AttestationRow.is_iff.mp his
        rw [hsource]
        exact inI64_asI64 source
    · rw [afterReserve_watermarks]
      exact ht.watermarks
  | reconciled => exact ⟨fun row hrow => ht.sources row (mem_of_mem_filter hrow), ht.watermarks⟩
  | @imported file gvr parsed hparse =>
    refine ⟨fun row hrow => ?_, fun key wm hwm => ?_⟩
    · rcases (importedRows (rootToHex gvr) parsed t).attestations row hrow with hold | ⟨_, _, a, _, _, hsource, _⟩
      · exact ht.sources row hold
      · rw [hsource]
        exact inI64_asI64 a.sourceEpoch
    · rcases import_lookup_cases (rootToHex gvr) parsed t hwm with hold | ⟨n, -, rfl⟩
      · exact ht.watermarks _ _ hold
      · exact inI64_asI64 n
  | pruned hprune =>
    obtain ⟨-, hwm, hrows, -⟩ := prune_eq hprune
    refine ⟨fun row hrow => ht.sources row (mem_of_mem_filter (hrows ▸ hrow)), ?_⟩
    rw [hwm]
    exact (ht.foldl_raiseSourceBound (targetFloors t)).watermarks
  | blockRaised hok =>
    obtain ⟨rfl, -⟩ := raiseWatermark_ok hok
    exact ht.putWatermark (inI64_asI64 _)
  | attestationRaised hok =>
    obtain ⟨raised, hsource, htarget⟩ := bind_eq_ok.mp hok
    obtain ⟨rfl, -⟩ := raiseWatermark_ok hsource
    obtain ⟨rfl, -⟩ := raiseWatermark_ok htarget
    exact (ht.putWatermark (inI64_asI64 _)).putWatermark (inI64_asI64 _)

theorem runAll_inRange (ht : t.InRange) (operations : List Operation) : (runAll db t operations).InRange :=
  runAll_invariant (P := Tables.InRange) (fun operation _ _ h => run_inRange h operation) ht

theorem runAll_append (t : Tables) (operations operations' : List Operation) :
    runAll db t (operations ++ operations') = runAll db (runAll db t operations) operations' :=
  foldl_append ..

theorem runAll_readsUp {operations : List Operation} (ht : t.InRange)
    (h : ∀ before operation after, operations = before ++ operation :: after →
      operation.Aligned (runAll db t before)) : t.ReadsUp (runAll db t operations) := by
  induction operations generalizing t with
  | nil => exact .of_eq rfl
  | cons operation rest ih =>
    have hfirst := (neverLowers_iff db ht operation).mpr (h [] operation rest rfl)
    refine hfirst.readsUp.trans (ih (run_inRange ht operation) fun before later after heq => ?_)
    exact h (operation :: before) later after (by rw [heq]; rfl)

end

end Operation

/-- **Watermarks only rise while the values that meet are in one half.** In a run in which every import and every
prune is aligned, started from any tables: no watermark ever reads less than at an earlier point of the run, a
`set_attestation_watermark` that fails, for whatever reason, changes nothing, and after an import that succeeds
every watermark reads at least every value of its kind in the file. -/
theorem watermarks_never_lowered (db : SlashingDb) {t : Tables} (ht : t.InRange) (operations : List Operation)
    (haligned : ∀ before operation after, operations = before ++ operation :: after →
      operation.Aligned (Operation.runAll db t before)) :
    (∀ before between after, operations = before ++ (between ++ after) →
      (Operation.runAll db t before).ReadsUp (Operation.runAll db t (before ++ between))) ∧
    (∀ before faults pubkey sourceEpoch targetEpoch e c, before <+: operations →
      setAttestationWatermarkTxn faults ⟨Operation.runAll db t before, none⟩ pubkey sourceEpoch targetEpoch =
        (.error e, c) → c = ⟨Operation.runAll db t before, none⟩) ∧
    ∀ before file gvr after, operations = before ++ .importFile file gvr :: after →
      ((Operation.importFile file gvr).run db (Operation.runAll db t before)).1 = .ok () →
      ∀ pubkey kind n, file.Holds pubkey kind n →
        ((Operation.importFile file gvr).run db (Operation.runAll db t before)).2.AtLeast pubkey kind n := by
  refine ⟨fun before between after heq => ?_, fun before faults pubkey source target e c _ hset => ?_,
    fun before file gvr after heq hok => ?_⟩
  · rw [runAll_append]
    refine runAll_readsUp (runAll_inRange ht before) fun first operation rest hsplit => ?_
    rw [← runAll_append]
    exact haligned (before ++ first) operation (rest ++ after) (by simp [heq, hsplit])
  · rcases setAttestationWatermarkTxn_cases faults (runAll db t before) pubkey source target with
      ⟨e', hkept⟩ | ⟨t', -, hok⟩
    · exact (Prod.mk.inj (hset.symm.trans hkept)).2
    · cases (Prod.mk.inj (hset.symm.trans hok)).1
  · have hstep := (neverLowers_iff db (runAll_inRange ht before) (.importFile file gvr)).mpr
      (haligned before _ after heq)
    exact hstep.imported file gvr rfl hok

def blockFile (slot : String) : InterchangeFormat := ⟨⟨"5", rootToHex zeroRoot⟩, [⟨"0xaa", [⟨slot, none⟩], []⟩]⟩

/-- A file with a block at slot 1 takes a block watermark from `2 ^ 63` down to 1, and one with a block at slot
`2 ^ 63` leaves a block watermark of 5 where it is. -/
theorem import_lowers_watermark :
    readWatermark (Operation.runAll ⟨true, 0⟩ Tables.empty [.setBlockWatermark "0xaa" 9223372036854775808])
        "0xaa" .block = some (2 ^ 63) ∧ readWatermark (Operation.runAll ⟨true, 0⟩ Tables.empty
        [.setBlockWatermark "0xaa" 9223372036854775808, .importFile (blockFile "1") zeroRoot]) "0xaa" .block = some 1 ∧
      readWatermark (Operation.runAll ⟨true, 0⟩ Tables.empty
        [.setBlockWatermark "0xaa" 5, .importFile (blockFile "9223372036854775808") zeroRoot]) "0xaa" .block =
          some 5 := by
  decide +kernel

def setThenImported : List Operation := [.setBlockWatermark "0xaa" 5, .importFile (blockFile "9") zeroRoot]

theorem setThenImported_aligned (before : List Operation) (operation : Operation) (after : List Operation)
    (h : setThenImported = before ++ operation :: after) :
    operation.Aligned (Operation.runAll ⟨true, 0⟩ Tables.empty before) := by
  rcases before with _ | ⟨first, _ | ⟨second, before⟩⟩
  · cases h
    trivial
  · obtain ⟨rfl, htail⟩ := cons.inj h
    obtain ⟨rfl, -⟩ := cons.inj (htail : _ = operation :: after)
    intro _ parsed hparsed pubkey kind
    have hparse : parseInterchange (blockFile "9") = .ok [⟨"0xaa", [], [⟨9, none⟩], none, none, some 9⟩] := by
      decide +kernel
    cases hparse.symm.trans hparsed
    have hlow : ∀ n, ImportMeets (runAll ⟨true, 0⟩ Tables.empty [.setBlockWatermark "0xaa" 5])
        [⟨"0xaa", [], [⟨9, none⟩], none, none, some 9⟩] pubkey kind n → n < 2 ^ 63 := by
      rintro n (hread | ⟨validator, hvalidator, -, hmax⟩)
      · obtain ⟨wm, hwm, rfl⟩ := readWatermark_some hread
        change (Tables.empty.putWatermark (normalizePubkey "0xaa") .block 5).watermarks.lookup (pubkey, kind) =
          some wm at hwm
        rw [putWatermark_lookup] at hwm
        split at hwm
        · cases hwm
          decide
        · cases hwm
      · obtain rfl := mem_singleton.mp hvalidator
        cases kind with
        | block =>
          cases hmax
          decide
        | attestationSource | attestationTarget => cases hmax
    intro m n hm hn
    have := hlow m hm
    have := hlow n hn
    omega
  · simp [setThenImported] at h

theorem Tables.inRange_empty : Tables.empty.InRange :=
  ⟨fun _ hrow => (not_mem_nil hrow).elim, fun _ _ hwm => by simp [Tables.empty] at hwm⟩

theorem watermarks_never_lowered_raised : ((Operation.importFile (blockFile "9") zeroRoot).run ⟨true, 0⟩
        (Operation.runAll ⟨true, 0⟩ Tables.empty [.setBlockWatermark "0xaa" 5])).2.AtLeast "0xaa" .block 9 :=
  (watermarks_never_lowered ⟨true, 0⟩ inRange_empty
    setThenImported setThenImported_aligned).2.2 [.setBlockWatermark "0xaa" 5] (blockFile "9") zeroRoot [] rfl
    (by decide +kernel) "0xaa" .block 9
    ⟨⟨"0xaa", [⟨"9", none⟩], []⟩, mem_singleton_self _, by decide +kernel, "9", mem_singleton_self _, by decide +kernel⟩

end Rvc.Slashing
