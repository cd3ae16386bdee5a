import Rvc.Lib.Txn
import Rvc.Lib.Votes
import Rvc.Slashing.Types

/-!
# Watermarks and pruning

`db/watermarks.rs`. Every write of the `watermarks` table raises: `raiseWatermark` refuses a lower value,
`raiseWatermarkMax` takes the larger one. Pruning first raises each source floor over the rows it is
about to delete, so that a deleted vote is covered by the floor that replaces it (`prune_spec`).
-/

namespace Rvc.Slashing

open Rvc.Lib Rvc.Observability List Tables Conn

/-! ### Reading and raising -/

def readWatermark (t : Tables) (pubkey : String) (kind : WatermarkKind) : Option Nat :=
  (t.watermarks.lookup (pubkey, kind)).map asU64

variable {pubkey : String} {t : Tables} {kind : WatermarkKind}

theorem readWatermark_of_lookup {wm : Int} (h : t.watermarks.lookup (pubkey, kind) = some wm) :
    readWatermark t pubkey kind = some (asU64 wm) := by
  rw [readWatermark, h]
  rfl

section

variable (t : Tables) (pubkey : String) (kind : WatermarkKind)

/-- The row `(pubkey, kind)` of the table set to `value`, inserted when missing. -/
def Tables.putWatermark (value : Int) : Tables :=
  { t with watermarks := t.watermarks.insert (pubkey, kind) value }

/-- `raise_watermark`: the comparison is on the unsigned reading. -/
def raiseWatermark (value : Nat) : Except SlashingError Tables :=
  match readWatermark t pubkey kind with
  | some current =>
      if value < current then
        .error (.watermarkLowered pubkey kind.asSqlStr current value)
      else
        .ok (t.putWatermark pubkey kind (asI64 value))
  | none => .ok (t.putWatermark pubkey kind (asI64 value))

/-- `raise_watermark_max`: SQLite's `MAX` compares the signed values. -/
def raiseWatermarkMax (value : Nat) : Tables :=
  match t.watermarks.lookup (pubkey, kind) with
  | some current => t.putWatermark pubkey kind (max current (asI64 value))
  | none => t.putWatermark pubkey kind (asI64 value)

def setBlockWatermark (slot : Nat) : Except SlashingError Tables :=
  raiseWatermark t (normalizePubkey pubkey) .block slot

/-- The two raises of `set_attestation_watermark`, source first. -/
def setAttestationWatermark (sourceEpoch targetEpoch : Nat) : Except SlashingError Tables := do
  let raised ← raiseWatermark t (normalizePubkey pubkey) .attestationSource sourceEpoch
  raiseWatermark raised (normalizePubkey pubkey) .attestationTarget targetEpoch

end

structure WatermarkFaults where
  begin : Option String
  source : Option Fault
  target : Option Fault
  commit : Option Fault

def setAttestationWatermarkBody (faults : WatermarkFaults) (pubkey : String) (sourceEpoch targetEpoch : Nat)
    (c : Conn Tables) : Except SlashingError Unit × Conn Tables :=
  match c.execute .databaseError faults.source fun t =>
      raiseWatermark t (normalizePubkey pubkey) .attestationSource sourceEpoch with
  | (.error e, c) => (.error e, c)
  | (.ok (), c) =>
      match c.execute .databaseError faults.target fun t =>
          raiseWatermark t (normalizePubkey pubkey) .attestationTarget targetEpoch with
      | (.error e, c) => (.error e, c)
      | (.ok (), c) =>
          match c.commit faults.commit with
          | (.error message, c) => (.error (.databaseError message), c)
          | (.ok (), c) => (.ok (), c)

/-- `set_attestation_watermark`; the transaction is rolled back when it is dropped before its commit. -/
def setAttestationWatermarkTxn (faults : WatermarkFaults) (c : Conn Tables) (pubkey : String)
    (sourceEpoch targetEpoch : Nat) : Except SlashingError Unit × Conn Tables :=
  c.withImmediateTxn .databaseError faults.begin (setAttestationWatermarkBody faults pubkey sourceEpoch targetEpoch)

/-! ### Pruning -/

structure PruneStats where
  attestationsDeleted : Nat
  blocksDeleted : Nat
  deriving DecidableEq

section

variable (t : Tables)

/-- `SELECT pubkey, value FROM watermarks WHERE watermark_type = 'att_target'`. -/
def targetFloors : List (String × Int) :=
  t.watermarks.entries.filterMap fun entry =>
    if entry.1.2 = .attestationTarget then some (entry.1.1, entry.2) else none

/-- `SELECT MAX(source_epoch) FROM attestations WHERE pubkey = ? AND target_epoch < ?`. -/
def maxSourceBelow (pubkey : String) (targetWm : Int) : Option Int :=
  (((t.attestationsOf pubkey).filter fun row => row.targetEpoch < targetWm).map (·.sourceEpoch)).max?

/-- One turn of prune's loop: the source floor goes over every row about to be deleted. -/
def raiseSourceBound (floor : String × Int) : Tables :=
  match maxSourceBelow t floor.1 floor.2 with
  | some maxSource => raiseWatermarkMax t floor.1 .attestationSource (asU64 maxSource)
  | none => t

def belowBlockFloor (row : BlockRow) : Bool :=
  match t.watermarks.lookup (row.pubkey, .block) with
  | some wm => row.slot < wm
  | none => false

def belowTargetFloor (row : AttestationRow) : Bool :=
  match t.watermarks.lookup (row.pubkey, .attestationTarget) with
  | some wm => row.targetEpoch < wm
  | none => false

def pruneBelowWatermarks : Except SlashingError (Tables × PruneStats) :=
  if t.watermarks.entries.length = 0 then
    .error .noWatermarksSet
  else
    let raised := (targetFloors t).foldl raiseSourceBound t
    .ok ({ raised with
            blocks := raised.blocks.filter fun row => !belowBlockFloor raised row
            attestations := raised.attestations.filter fun row => !belowTargetFloor raised row },
          { attestationsDeleted := raised.attestations.countP (belowTargetFloor raised)
            blocksDeleted := raised.blocks.countP (belowBlockFloor raised) })

end

/-! ### What a raise does -/

theorem Tables.putWatermark_lookup (t : Tables) (pubkey : String) (kind : WatermarkKind) (value : Int)
    (key : String × WatermarkKind) : (t.putWatermark pubkey kind value).watermarks.lookup key =
      if key = (pubkey, kind) then some value else t.watermarks.lookup key := by
  split
  · next h => rw [h]; exact AList.lookup_insert _
  · next h => exact AList.lookup_insert_ne h

structure Tables.Raised (t t' : Tables) : Prop where
  attestations : t'.attestations = t.attestations
  blocks : t'.blocks = t.blocks
  metadataGvr : t'.metadataGvr = t.metadataGvr
  watermarks : ∀ key wm, t.watermarks.lookup key = some wm →
    ∃ wm', t'.watermarks.lookup key = some wm' ∧ wm ≤ wm'

theorem Tables.Raised.refl (t : Tables) : t.Raised t :=
  ⟨rfl, rfl, rfl, fun _ wm h => ⟨wm, h, le_rfl⟩⟩

variable {t' : Tables}

theorem Tables.Raised.trans {t'' : Tables} (h : t.Raised t') (h' : t'.Raised t'') : t.Raised t'' := by
  refine ⟨h'.1.trans h.1, h'.2.trans h.2, h'.3.trans h.3, fun key wm hwm => ?_⟩
  obtain ⟨wm', hwm', hle⟩ := h.watermarks key wm hwm
  obtain ⟨wm'', hwm'', hle'⟩ := h'.watermarks key wm' hwm'
  exact ⟨wm'', hwm'', hle.trans hle'⟩

theorem Tables.raised_putWatermark {value : Int} (h : ∀ wm, t.watermarks.lookup (pubkey, kind) = some wm → wm ≤ value) :
    t.Raised (t.putWatermark pubkey kind value) := by
  refine ⟨rfl, rfl, rfl, fun key wm hwm => ?_⟩
  rw [putWatermark_lookup]
  split
  · next hkey => exact ⟨value, rfl, h wm (hkey ▸ hwm)⟩
  · exact ⟨wm, hwm, le_rfl⟩

theorem Tables.Small.putWatermark {value : Int}
    (hsmall : t.Small) (h : SmallInt value) : (t.putWatermark pubkey kind value).Small := by
  refine ⟨hsmall.attestations, hsmall.blocks, fun key wm hwm => ?_⟩
  rw [putWatermark_lookup] at hwm
  split at hwm
  · exact Option.some.inj hwm ▸ h
  · exact hsmall.watermarks key wm hwm

section

variable (t : Tables) (pubkey : String) (kind : WatermarkKind) (value : Nat)

theorem raiseWatermarkMax_eq :
    ∃ wm, raiseWatermarkMax t pubkey kind value = t.putWatermark pubkey kind wm ∧ asI64 value ≤ wm ∧
      (∀ old, t.watermarks.lookup (pubkey, kind) = some old → old ≤ wm) ∧
      (wm = asI64 value ∨ t.watermarks.lookup (pubkey, kind) = some wm) := by
  unfold raiseWatermarkMax
  cases h : t.watermarks.lookup (pubkey, kind) with
  | none => exact ⟨_, rfl, le_rfl, by simp, .inl rfl⟩
  | some current =>
    refine ⟨_, rfl, le_max_right _ _, fun old hold => Option.some.inj hold ▸ le_max_left _ _, ?_⟩
    rcases le_total current (asI64 value) with hle | hle
    · exact .inl (max_eq_right hle)
    · exact .inr (by rw [max_eq_left hle])

theorem raiseWatermarkMax_raised : t.Raised (raiseWatermarkMax t pubkey kind value) := by
  obtain ⟨wm, heq, -, hold, -⟩ := raiseWatermarkMax_eq t pubkey kind value
  exact heq ▸ raised_putWatermark hold

theorem raiseWatermarkMax_lookup :
    ∃ wm, (raiseWatermarkMax t pubkey kind value).watermarks.lookup (pubkey, kind) = some wm ∧
      asI64 value ≤ wm := by
  obtain ⟨wm, heq, hle, -, -⟩ := raiseWatermarkMax_eq t pubkey kind value
  exact ⟨wm, by rw [heq, putWatermark_lookup, if_pos rfl], hle⟩

end

def raisedTo (current : Option Int) (value : Int) : Int := (current.map (max · value)).getD value

theorem raiseWatermarkMax_lookup_self (t : Tables) (pubkey : String) (kind : WatermarkKind) (value : Nat) :
    (raiseWatermarkMax t pubkey kind value).watermarks.lookup (pubkey, kind) =
      some (raisedTo (t.watermarks.lookup (pubkey, kind)) (asI64 value)) := by
  unfold raiseWatermarkMax raisedTo
  cases t.watermarks.lookup (pubkey, kind) <;> simp [putWatermark]

variable {key : String × WatermarkKind}

theorem raiseWatermarkMax_lookup_ne (t : Tables) (value : Nat) (h : key ≠ (pubkey, kind)) :
    (raiseWatermarkMax t pubkey kind value).watermarks.lookup key = t.watermarks.lookup key := by
  obtain ⟨wm, heq, -⟩ := raiseWatermarkMax_eq t pubkey kind value
  rw [heq, putWatermark_lookup, if_neg h]

theorem Tables.Small.raiseWatermarkMax {value : Nat} (hsmall : t.Small) (h : value < 2 ^ 63) :
    (raiseWatermarkMax t pubkey kind value).Small := by
  obtain ⟨wm, heq, -, -, hwm | hwm⟩ := raiseWatermarkMax_eq t pubkey kind value
  · exact heq ▸ hsmall.putWatermark (hwm ▸ smallInt_asI64 h)
  · exact heq ▸ hsmall.putWatermark (hsmall.watermarks _ _ hwm)

theorem raiseWatermark_ok {value : Nat} (h : raiseWatermark t pubkey kind value = .ok t') :
    t' = t.putWatermark pubkey kind (asI64 value) ∧
      ∀ current, readWatermark t pubkey kind = some current → current ≤ value := by
  unfold raiseWatermark at h
  cases hread : readWatermark t pubkey kind with
  | none => exact ⟨by simpa [hread] using h.symm, by simp⟩
  | some current =>
    rw [hread] at h
    dsimp only at h
    split at h
    · cases h
    · next hge =>
      refine ⟨(Except.ok.inj h).symm, fun read hsome => ?_⟩
      rw [← Option.some.inj hsome]
      exact Nat.not_lt.mp hge

theorem raiseWatermark_spec {value : Nat}
    (hsmall : t.Small) (hvalue : value < 2 ^ 63) (h : raiseWatermark t pubkey kind value = .ok t') :
    t.Raised t' ∧ t'.Small ∧ t' = t.putWatermark pubkey kind (asI64 value) := by
  obtain ⟨rfl, hread⟩ := raiseWatermark_ok h
  refine ⟨raised_putWatermark fun wm hwm => ?_, hsmall.putWatermark (smallInt_asI64 hvalue), rfl⟩
  have hle := hread _ (readWatermark_of_lookup hwm)
  have hcast := asU64_of_smallInt (hsmall.watermarks _ _ hwm)
  rw [asI64_of_lt hvalue]
  omega

section

variable (faults : WatermarkFaults) (t : Tables) (pubkey : String) (sourceEpoch targetEpoch : Nat)

theorem setAttestationWatermarkBody_cases : (∃ t', setAttestationWatermark t pubkey sourceEpoch targetEpoch = .ok t' ∧
        setAttestationWatermarkBody faults pubkey sourceEpoch targetEpoch ⟨t, some t⟩ = (.ok (), ⟨t', none⟩)) ∨
      ∃ e c, setAttestationWatermarkBody faults pubkey sourceEpoch targetEpoch ⟨t, some t⟩ = (.error e, c) ∧
        c.committed = t := by
  unfold setAttestationWatermarkBody setAttestationWatermark
  rcases execute_cases SlashingError.databaseError t t faults.source fun t =>
    raiseWatermark t (normalizePubkey pubkey) .attestationSource sourceEpoch with
    ⟨raised, hsource, heq⟩ | ⟨e, c, heq, hc⟩
  · rw [heq, hsource]
    dsimp only
    rcases execute_cases SlashingError.databaseError t raised faults.target fun t =>
      raiseWatermark t (normalizePubkey pubkey) .attestationTarget targetEpoch with
      ⟨t', htarget, heq'⟩ | ⟨e, c, heq', hc⟩
    · rw [heq']
      rcases commit_cases t t' faults.commit with hok | ⟨message, c, herr, hc⟩
      · exact .inl ⟨t', htarget, by simp only [hok]⟩
      · exact .inr ⟨.databaseError message, c, by simp only [herr], hc⟩
    · exact .inr ⟨e, c, by simp only [heq'], hc⟩
  · exact .inr ⟨e, c, by simp only [heq], hc⟩

theorem setAttestationWatermarkTxn_cases :
    (∃ e, setAttestationWatermarkTxn faults ⟨t, none⟩ pubkey sourceEpoch targetEpoch = (.error e, ⟨t, none⟩)) ∨
      ∃ t', setAttestationWatermark t pubkey sourceEpoch targetEpoch = .ok t' ∧
        setAttestationWatermarkTxn faults ⟨t, none⟩ pubkey sourceEpoch targetEpoch = (.ok (), ⟨t', none⟩) := by
  have hbody := setAttestationWatermarkBody_cases faults t pubkey sourceEpoch targetEpoch
  unfold setAttestationWatermarkTxn
  rcases withImmediateTxn_cases SlashingError.databaseError (c := ⟨t, none⟩) rfl faults.begin
    (setAttestationWatermarkBody faults pubkey sourceEpoch targetEpoch) with
    ⟨message, h⟩ | ⟨a, c, hrun, h⟩ | ⟨e, c, hrun, h⟩
  · exact .inl ⟨_, h⟩
  · rcases hbody with ⟨t', hset, hok⟩ | ⟨e', c', herr, -⟩
    · exact .inr ⟨t', hset, h.trans (hrun.symm.trans hok)⟩
    · cases (Prod.mk.inj (hrun.symm.trans herr)).1
  · rcases hbody with ⟨t', -, hok⟩ | ⟨e', c', herr, hc⟩
    · cases (Prod.mk.inj (hrun.symm.trans hok)).1
    · cases hrun.symm.trans herr
      exact .inl ⟨e, h.trans (by rw [eq_of_rollback hc])⟩

end

theorem setAttestationWatermarkTxn_eq (t : Tables) (pubkey : String) (sourceEpoch targetEpoch : Nat) :
    setAttestationWatermarkTxn ⟨none, none, none, none⟩ ⟨t, none⟩ pubkey sourceEpoch targetEpoch =
      match setAttestationWatermark t pubkey sourceEpoch targetEpoch with
      | .ok t' => (.ok (), ⟨t', none⟩)
      | .error e => (.error e, ⟨t, none⟩) := by
  unfold setAttestationWatermarkTxn setAttestationWatermarkBody setAttestationWatermark
  cases hsource : raiseWatermark t (normalizePubkey pubkey) .attestationSource sourceEpoch with
  | error e =>
    simp [withImmediateTxn, beginImmediate, execute, hsource, rollback, bind, Except.bind]
  | ok raised =>
    cases htarget : raiseWatermark raised (normalizePubkey pubkey) .attestationTarget targetEpoch <;>
      simp [withImmediateTxn, beginImmediate, execute, hsource, htarget, rollback, commit, bind, Except.bind]

/-! ### Protection as votes and floors -/

def AttestationRow.vote (row : AttestationRow) : Vote Int := ⟨row.sourceEpoch, row.targetEpoch⟩

def Tables.floor (t : Tables) (pubkey : String) : Floor Int :=
  ⟨t.watermarks.lookup (pubkey, .attestationSource), t.watermarks.lookup (pubkey, .attestationTarget)⟩

def Tables.BlockCovered (t : Tables) (pubkey : String) (slot : Int) : Prop :=
  ∃ wm, t.watermarks.lookup (pubkey, .block) = some wm ∧ slot ≤ wm

instance (t : Tables) (pubkey : String) (slot : Int) : Decidable (t.BlockCovered pubkey slot) :=
  inferInstanceAs (Decidable (∃ wm ∈ t.watermarks.lookup (pubkey, .block), slot ≤ wm))

/-- `t'` protects at least what `t` does: floors only rise, and a row is dropped only once its floor
covers it. -/
structure Tables.Advances (t t' : Tables) : Prop where
  watermarks : ∀ key wm, t.watermarks.lookup key = some wm →
    ∃ wm', t'.watermarks.lookup key = some wm' ∧ wm ≤ wm'
  attestations : ∀ row ∈ t.attestations, row ∈ t'.attestations ∨ (t'.floor row.pubkey).Covers row.vote
  blocks : ∀ row ∈ t.blocks, row ∈ t'.blocks ∨ t'.BlockCovered row.pubkey row.slot

theorem Tables.Advances.floor_raised (h : t.Advances t') (pubkey : String) :
    (t.floor pubkey).Raised (t'.floor pubkey) :=
  ⟨h.watermarks (pubkey, .attestationSource), h.watermarks (pubkey, .attestationTarget)⟩

theorem Tables.Advances.blockCovered (h : t.Advances t') {slot : Int}
    (hcov : t.BlockCovered pubkey slot) : t'.BlockCovered pubkey slot := by
  obtain ⟨wm, hwm, hle⟩ := hcov
  obtain ⟨wm', hwm', hle'⟩ := h.watermarks _ wm hwm
  exact ⟨wm', hwm', hle.trans hle'⟩

theorem Tables.Raised.advances (h : t.Raised t') : t.Advances t' :=
  ⟨h.watermarks, fun _ hrow => .inl (h.attestations ▸ hrow), fun _ hrow => .inl (h.blocks ▸ hrow)⟩

/-! ### Pruning advances -/

theorem raiseSourceBound_raised (t : Tables) (floor : String × Int) : t.Raised (raiseSourceBound t floor) := by
  unfold raiseSourceBound
  split
  · exact raiseWatermarkMax_raised _ _ _ _
  · exact .refl t

theorem raiseSourceBound_lookup (t : Tables) (floor : String × Int) (h : key.2 ≠ .attestationSource) :
    (raiseSourceBound t floor).watermarks.lookup key = t.watermarks.lookup key := by
  unfold raiseSourceBound
  split
  · exact raiseWatermarkMax_lookup_ne t _ fun heq => h (congrArg Prod.snd heq)
  · rfl

theorem Tables.Small.raiseSourceBound (hsmall : t.Small) (floor : String × Int) : (raiseSourceBound t floor).Small := by
  unfold Slashing.raiseSourceBound
  split
  · next maxSource hmax =>
    obtain ⟨row, hrow, rfl⟩ := mem_map.mp (List.max?_mem hmax)
    have hs := (hsmall.attestations row (by simp_all)).1
    exact hsmall.raiseWatermarkMax (by have := asU64_of_smallInt hs; have := hs.2; omega)
  · exact hsmall

theorem raiseSourceBound_covers (hsmall : t.Small) {targetWm : Int}
    {row : AttestationRow} (hrow : row ∈ t.attestations) (hpk : row.pubkey = pubkey)
    (hlt : row.targetEpoch < targetWm) :
    ∃ ws, (raiseSourceBound t (pubkey, targetWm)).watermarks.lookup (pubkey, .attestationSource) =
      some ws ∧ row.sourceEpoch ≤ ws := by
  have hmem : row.sourceEpoch ∈
      ((t.attestationsOf pubkey).filter fun row => row.targetEpoch < targetWm).map (·.sourceEpoch) :=
    mem_map.mpr ⟨row, by simp [hrow, hpk, hlt], rfl⟩
  unfold raiseSourceBound
  cases hmax : maxSourceBelow t pubkey targetWm with
  | none =>
    rw [maxSourceBelow, List.max?_eq_none_iff] at hmax
    simp [hmax] at hmem
  | some maxSource =>
    obtain ⟨top, htop, heq⟩ := mem_map.mp (List.max?_mem hmax)
    have hs : SmallInt maxSource := heq ▸ (hsmall.attestations top (by simp_all)).1
    have hback : asI64 (asU64 maxSource) = maxSource := by
      have h1 := asU64_of_smallInt hs
      rw [asI64_of_lt (by have := hs.2; omega), h1]
    obtain ⟨ws, hws, hle⟩ :=
      raiseWatermarkMax_lookup t pubkey .attestationSource (asU64 maxSource)
    rw [hback] at hle
    exact ⟨ws, hws, ((List.max?_eq_some_iff.mp hmax).2 _ hmem).trans hle⟩

theorem foldl_raiseSourceBound_raised (floors : List (String × Int)) (t : Tables) :
    t.Raised (floors.foldl raiseSourceBound t) := by
  induction floors generalizing t with
  | nil => exact .refl t
  | cons floor floors ih => exact (raiseSourceBound_raised t floor).trans (ih _)

theorem foldl_raiseSourceBound_lookup (floors : List (String × Int)) (t : Tables) (h : key.2 ≠ .attestationSource) :
    (floors.foldl raiseSourceBound t).watermarks.lookup key = t.watermarks.lookup key := by
  induction floors generalizing t with
  | nil => rfl
  | cons floor floors ih => exact (ih _).trans (raiseSourceBound_lookup t floor h)

theorem Tables.Small.foldl_raiseSourceBound (hsmall : t.Small)
    (floors : List (String × Int)) : (floors.foldl Slashing.raiseSourceBound t).Small := by
  induction floors generalizing t with
  | nil => exact hsmall
  | cons floor floors ih => exact ih (hsmall.raiseSourceBound floor)

/-- The whole loop: each listed pubkey's source floor ends over the rows below its target floor, since
later turns only raise it. -/
theorem foldl_raiseSourceBound_covers (floors : List (String × Int)) (hsmall : t.Small) {targetWm : Int}
    (hfloor : (pubkey, targetWm) ∈ floors) {row : AttestationRow}
    (hrow : row ∈ t.attestations) (hpk : row.pubkey = pubkey) (hlt : row.targetEpoch < targetWm) :
    ∃ ws, (floors.foldl raiseSourceBound t).watermarks.lookup (pubkey, .attestationSource) = some ws ∧
      row.sourceEpoch ≤ ws := by
  induction floors generalizing t with
  | nil => simp at hfloor
  | cons floor floors ih =>
    rcases mem_cons.mp hfloor with rfl | hfloor
    · obtain ⟨ws, hws, hle⟩ := raiseSourceBound_covers hsmall hrow hpk hlt
      obtain ⟨ws', hws', hle'⟩ := (foldl_raiseSourceBound_raised floors _).watermarks _ ws hws
      exact ⟨ws', hws', hle.trans hle'⟩
    · refine ih (hsmall.raiseSourceBound floor) hfloor ?_
      rwa [(raiseSourceBound_raised t floor).attestations]

theorem mem_targetFloors {wm : Int}
    (h : t.watermarks.lookup (pubkey, .attestationTarget) = some wm) : (pubkey, wm) ∈ targetFloors t :=
  mem_filterMap.mpr ⟨⟨(pubkey, .attestationTarget), wm⟩, AList.mem_lookup_iff.mp h, by simp⟩

theorem lookup_of_mem_targetFloors {floor : String × Int} (h : floor ∈ targetFloors t) :
    t.watermarks.lookup (floor.1, .attestationTarget) = some floor.2 := by
  obtain ⟨⟨⟨pubkey, kind⟩, value⟩, hentry, heq⟩ := mem_filterMap.mp h
  split at heq
  · next hkind =>
    cases heq
    change kind = .attestationTarget at hkind
    subst hkind
    exact AList.mem_lookup_iff.mpr hentry
  · cases heq

theorem prune_spec {stats : PruneStats} (hsmall : t.Small) (h : pruneBelowWatermarks t = .ok (t', stats)) :
    t.Advances t' ∧ t'.Small ∧ t'.attestations ⊆ t.attestations ∧ t'.blocks ⊆ t.blocks := by
  unfold pruneBelowWatermarks at h
  split at h
  · cases h
  cases h
  have hraised := foldl_raiseSourceBound_raised (targetFloors t) t
  have hsmall' := hsmall.foldl_raiseSourceBound (targetFloors t)
  refine ⟨⟨hraised.watermarks, fun row hrow => ?_, fun row hrow => ?_⟩,
    ⟨fun row hrow => hsmall'.attestations row (mem_of_mem_filter hrow),
      fun row hrow => hsmall'.blocks row (mem_of_mem_filter hrow), hsmall'.watermarks⟩,
    fun row hrow => hraised.attestations ▸ mem_of_mem_filter hrow,
    fun row hrow => hraised.blocks ▸ mem_of_mem_filter hrow⟩
  · -- a row below the target floor was under the loop, every other one is kept
    by_cases hbelow : belowTargetFloor ((targetFloors t).foldl raiseSourceBound t) row
    · right
      unfold belowTargetFloor at hbelow
      split at hbelow
      · next wm hwm =>
        have hwm' := hwm
        rw [foldl_raiseSourceBound_lookup _ _ (by simp)] at hwm'
        have hlt : row.targetEpoch < wm := by simpa using hbelow
        exact ⟨foldl_raiseSourceBound_covers _ hsmall (mem_targetFloors hwm') hrow rfl hlt, wm, hwm, hlt.le⟩
      · cases hbelow
    · exact .inl (mem_filter.mpr ⟨hraised.attestations ▸ hrow, by simpa using hbelow⟩)
  · by_cases hbelow : belowBlockFloor ((targetFloors t).foldl raiseSourceBound t) row
    · right
      unfold belowBlockFloor at hbelow
      split at hbelow
      · next wm hwm => exact ⟨wm, hwm, le_of_lt (by simpa using hbelow)⟩
      · cases hbelow
    · exact .inl (mem_filter.mpr ⟨hraised.blocks ▸ hrow, by simpa using hbelow⟩)

end Rvc.Slashing
