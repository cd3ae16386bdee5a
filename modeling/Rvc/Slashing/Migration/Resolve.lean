import Mathlib.Data.String.Basic
import Mathlib.Data.List.Dedup
import Mathlib.Data.Prod.Lex
import Rvc.Lib.Grouping
import Rvc.Slashing.Types

/-!
# Resolving duplicate rows

The migration to schema version 3 thins the groups of rows that share pubkey, genesis root and slot or
target to their first row, in the order of the source: the smallest signing root for blocks, the
**greatest** source epoch for attestations. `resolveDuplicates_condenses` says what is left of a table.
-/

namespace Rvc.Slashing

open Rvc.Lib List

/-! ### The two tables -/

/-- A table row with its primary key and the marker column of version 3. -/
structure Stored (ρ : Type) where
  id : Int
  row : ρ
  slashingHistoryMarker : Nat
  deriving DecidableEq

/-- What the two tables differ in when their duplicates are resolved. -/
structure TablePolicy (ρ β : Type) where
  name : String
  /-- `GROUP BY pubkey, genesis_validators_root, slot` or `target_epoch`. -/
  scope : ρ → String × Option String × Int
  rank : ρ → β
  differs : ρ → ρ → Bool
  clientCn : ρ → String
  withClientCn : ρ → String → ρ
  withClientCn_clientCn : ∀ row, withClientCn row (clientCn row) = row
  withClientCn_withClientCn : ∀ row a b, withClientCn (withClientCn row a) b = withClientCn row b
  clientCn_withClientCn : ∀ row cn, clientCn (withClientCn row cn) = cn
  scope_withClientCn : ∀ row cn, scope (withClientCn row cn) = scope row

/-- Blocks: a row with a root before one without, then the smallest root, then the smallest CN. -/
def blockPolicy : TablePolicy BlockRow (Bool ×ₗ String ×ₗ String) where
  name := "block"
  scope row := (row.pubkey, row.genesisValidatorsRoot, row.slot)
  rank row := toLex (row.signingRoot.isNone, toLex (row.signingRoot.getD "", row.clientCn))
  differs a b := a.signingRoot != b.signingRoot
  clientCn := BlockRow.clientCn
  withClientCn row cn := { row with clientCn := cn }
  withClientCn_clientCn _ := rfl
  withClientCn_withClientCn _ _ _ := rfl
  clientCn_withClientCn _ _ := rfl
  scope_withClientCn _ _ := rfl

/-- Attestations: the greatest source epoch, then the smallest CN. -/
def attestationPolicy : TablePolicy AttestationRow (Int ᵒᵈ ×ₗ String) where
  name := "att"
  scope row := (row.pubkey, row.genesisValidatorsRoot, row.targetEpoch)
  rank row := toLex (OrderDual.toDual row.sourceEpoch, row.clientCn)
  differs a b := a.sourceEpoch != b.sourceEpoch || a.signingRoot != b.signingRoot
  clientCn := AttestationRow.clientCn
  withClientCn row cn := { row with clientCn := cn }
  withClientCn_clientCn _ := rfl
  withClientCn_withClientCn _ _ _ := rfl
  clientCn_withClientCn _ _ := rfl
  scope_withClientCn _ _ := rfl

section

variable {ρ β : Type} [LinearOrder β] (policy : TablePolicy ρ β)

/-- The columns of the version 2 index: CN, pubkey and slot or target. -/
def TablePolicy.cnKey (row : ρ) : String × String × Int :=
  (policy.clientCn row, (policy.scope row).1, (policy.scope row).2.2)

section

variable (rows : List (Stored ρ))

/-- `UPDATE … SET client_cn, slashing_history_marker WHERE id`, under the version 2 index. -/
def updateKeeper (id : Int) (minCn : String) (marker : Nat) : Except SlashingError (List (Stored ρ)) :=
  let updated := rows.map fun s =>
    if s.id = id then ⟨s.id, policy.withClientCn s.row minCn, marker⟩ else s
  if (updated.map fun s => policy.cnKey s.row).Nodup then
    .ok updated
  else
    .error (.migrationFailed ("update keeper " ++ policy.name ++ ": UNIQUE constraint failed"))

def resolveGroup (group : String × Option String × Int) : Except SlashingError (List (Stored ρ)) :=
  match orderBy (fun s => policy.rank s.row) (rows.filter fun s => policy.scope s.row = group) with
  | [] => .ok rows
  | keeper :: rest =>
      -- the others go first: the keeper takes over a CN that one of them may still hold
      updateKeeper policy (rows.filter fun s => s.id ∉ rest.map (·.id)) keeper.id
        ((((keeper :: rest).map fun s => policy.clientCn s.row).min?).getD "__legacy__")
        (if rest.any fun s => policy.differs s.row keeper.row then 1 else 0)

def duplicateGroups : List (String × Option String × Int) :=
  let scopes := rows.map fun s => policy.scope s.row
  scopes.dedup.filter fun group => 1 < scopes.count group

def resolveDuplicates : Except SlashingError (List (Stored ρ)) :=
  (duplicateGroups policy rows).foldlM (resolveGroup policy) rows

def createScopedIndex : Except SlashingError Unit :=
  if (rows.map fun s => policy.scope s.row).Nodup then
    .ok ()
  else
    .error (.migrationFailed "create pubkey-scoped indices: UNIQUE constraint failed")

end

end

def resolveDuplicateBlocks := resolveDuplicates blockPolicy

def resolveDuplicateAttestations := resolveDuplicates attestationPolicy

/-! ### Thinning a table -/

section

variable {ρ β : Type} {policy : TablePolicy ρ β}

def TablePolicy.Same (policy : TablePolicy ρ β) (y x : Stored ρ) : Prop :=
  y.id = x.id ∧ ∃ cn, y.row = policy.withClientCn x.row cn

theorem TablePolicy.Same.refl (s : Stored ρ) : policy.Same s s :=
  ⟨rfl, policy.clientCn s.row, (policy.withClientCn_clientCn s.row).symm⟩

theorem TablePolicy.Same.trans {a b c : Stored ρ} (h₁ : policy.Same a b) (h₂ : policy.Same b c) : policy.Same a c := by
  obtain ⟨hid₁, cn, hrow₁⟩ := h₁
  obtain ⟨hid₂, cn', hrow₂⟩ := h₂
  exact ⟨hid₁.trans hid₂, cn, by rw [hrow₁, hrow₂, policy.withClientCn_withClientCn]⟩

theorem TablePolicy.Same.scope {y x : Stored ρ} (h : policy.Same y x) : policy.scope y.row = policy.scope x.row := by
  obtain ⟨-, cn, hrow⟩ := h
  rw [hrow, policy.scope_withClientCn]

def TablePolicy.relabel (policy : TablePolicy ρ β) (id : Int) (cn : String) (marker : Nat) (s : Stored ρ) : Stored ρ :=
  if s.id = id then ⟨s.id, policy.withClientCn s.row cn, marker⟩ else s

theorem TablePolicy.relabel_same (policy : TablePolicy ρ β) (id : Int) (cn : String) (marker : Nat) (s : Stored ρ) :
    policy.Same (policy.relabel id cn marker s) s := by
  unfold TablePolicy.relabel
  split
  · exact ⟨rfl, cn, rfl⟩
  · exact .refl s

@[simp] theorem TablePolicy.relabel_id (id : Int) (cn : String) (marker : Nat) (s : Stored ρ) :
    (policy.relabel id cn marker s).id = s.id :=
  (policy.relabel_same id cn marker s).1

theorem exists_min_clientCn (policy : TablePolicy ρ β) (keeper : Stored ρ) (rest : List (Stored ρ)) :
    ∃ donor ∈ keeper :: rest, ((((keeper :: rest).map fun s => policy.clientCn s.row).min?).getD "__legacy__") =
        policy.clientCn donor.row := by
  cases hmin : ((keeper :: rest).map fun s => policy.clientCn s.row).min? with
  | none => simp at hmin
  | some cn =>
    obtain ⟨donor, hdonor, hcn⟩ := mem_map.mp (List.min?_mem hmin)
    exact ⟨donor, hdonor, hcn.symm⟩

variable [LinearOrder β]

/-- The shape of one turn: nothing to do, or the group's first row stays and takes the CN of one of the
group's rows. -/
theorem resolveGroup_cases (policy : TablePolicy ρ β) (rows : List (Stored ρ)) (group : String × Option String × Int) :
    ((rows.filter fun s => policy.scope s.row = group) = [] ∧
        resolveGroup policy rows group = .ok rows) ∨ ∃ keeper rest donor marker,
        orderBy (fun s => policy.rank s.row) (rows.filter fun s => policy.scope s.row = group) =
          keeper :: rest ∧ donor ∈ keeper :: rest ∧ resolveGroup policy rows group =
          updateKeeper policy (rows.filter fun s => s.id ∉ rest.map (·.id)) keeper.id
            (policy.clientCn donor.row) marker := by
  unfold resolveGroup
  cases hsorted : orderBy (fun s => policy.rank s.row) (rows.filter fun s => policy.scope s.row = group) with
  | nil =>
    refine .inl ⟨eq_nil_iff_forall_not_mem.mpr fun x hx => ?_, rfl⟩
    have : x ∈ orderBy (fun s => policy.rank s.row) _ := mem_orderBy.mpr hx
    simp [hsorted] at this
  | cons keeper rest =>
    obtain ⟨donor, hdonor, hcn⟩ := exists_min_clientCn policy keeper rest
    exact .inr ⟨keeper, rest, donor, _, rfl, hdonor, by rw [← hcn]⟩

def UniqueIds (rows : List (Stored ρ)) : Prop := (rows.map (·.id)).Nodup

section

variable {rows rest : List (Stored ρ)} {keeper : Stored ρ} {group : String × Option String × Int}
  (hsorted : orderBy (fun s => policy.rank s.row) (rows.filter fun s => policy.scope s.row = group) = keeper :: rest)

include hsorted

theorem mem_sorted_iff {x : Stored ρ} : x ∈ keeper :: rest ↔ x ∈ rows ∧ policy.scope x.row = group := by
  rw [← hsorted, mem_orderBy]
  simp

theorem keeper_id_not_mem (hids : UniqueIds rows) : keeper.id ∉ rest.map (·.id) := by
  have hperm : (keeper :: rest).Perm (rows.filter fun s => policy.scope s.row = group) :=
    hsorted ▸ perm_insertionSort _ _
  have hnodup : ((keeper :: rest).map (·.id)).Nodup :=
    (hperm.map _).nodup_iff.mpr ((filter_sublist.map _).nodup hids)
  exact (nodup_cons.mp hnodup).1

theorem mem_rest_of_id (hids : UniqueIds rows) {x : Stored ρ} (hx : x ∈ rows)
    (hid : x.id ∈ rest.map (·.id)) : x ∈ rest := by
  obtain ⟨r, hr, hrid⟩ := mem_map.mp hid
  have hrow := (mem_sorted_iff hsorted).mp (mem_cons_of_mem _ hr)
  have : r = x := inj_on_of_nodup_map hids hrow.1 hx hrid
  exact this ▸ hr

end

variable {group : String × Option String × Int} {rows : List (Stored ρ)}

section

variable (le : ρ → ρ → Prop) (hrank : ∀ a b, policy.rank a ≤ policy.rank b → le a b)
  (hcn : ∀ a b cn, le a b → le (policy.withClientCn a cn) b)

include hrank hcn

/-- A turn of the loop condenses the table, for every ranking that the order of the source respects and
the CN does not enter. -/
theorem resolveGroup_condenses {rows' : List (Stored ρ)} (hids : UniqueIds rows)
    (h : resolveGroup policy rows group = .ok rows') : UniqueIds rows' ∧
      Condenses policy.Same (fun s => policy.scope s.row) (fun y x => le y.row x.row) rows rows' := by
  rcases resolveGroup_cases policy rows group with
    ⟨-, hok⟩ | ⟨keeper, rest, donor, marker, hsorted, -, hok⟩
  · cases hok.symm.trans h
    exact ⟨hids, .refl TablePolicy.Same.refl (fun x => hrank _ _ le_rfl) _⟩
  · rw [hok, updateKeeper] at h
    split at h
    case isFalse => cases h
    obtain rfl : List.map (policy.relabel keeper.id (policy.clientCn donor.row) marker) _ = rows' := Except.ok.inj h
    have hsame := policy.relabel_same keeper.id (policy.clientCn donor.row) marker
    have hle : ∀ s x : Stored ρ, policy.rank s.row ≤ policy.rank x.row →
        le (policy.relabel keeper.id (policy.clientCn donor.row) marker s).row x.row := by
      intro s x hsx
      obtain ⟨-, cn, hrow⟩ := hsame s
      rw [hrow]
      exact hcn _ _ _ (hrank _ _ hsx)
    refine ⟨?_, fun y hy => ?_, fun x hx => ?_⟩
    · have : (List.map (·.id) ((rows.filter fun s => s.id ∉ rest.map (·.id)).map
          (policy.relabel keeper.id (policy.clientCn donor.row) marker))).Sublist (rows.map (·.id)) := by
        simpa [Function.comp_def] using filter_sublist.map _
      exact this.nodup hids
    · obtain ⟨s, hs, rfl⟩ := mem_map.mp hy
      exact ⟨s, mem_of_mem_filter hs, hsame s⟩
    · by_cases hid : x.id ∈ rest.map (·.id)
      · -- a deleted row is answered for by the keeper
        have hxrest := mem_rest_of_id hsorted hids hx hid
        have hxgroup := (mem_sorted_iff hsorted).mp (mem_cons_of_mem _ hxrest)
        have hkeeper := (mem_sorted_iff hsorted).mp mem_cons_self
        refine ⟨_, mem_map_of_mem (mem_filter.mpr ⟨hkeeper.1, ?_⟩), ?_, hle keeper x ?_⟩
        · simpa using keeper_id_not_mem hsorted hids
        · rw [(hsame keeper).scope, hkeeper.2, hxgroup.2]
        · exact orderBy_head hsorted x (by simpa using hxgroup)
      · exact ⟨_, mem_map_of_mem (mem_filter.mpr ⟨hx, by simpa using hid⟩), (hsame x).scope, hle x x le_rfl⟩

theorem resolveDuplicates_condenses
    (htrans : ∀ {a b c}, le a b → le b c → le a c) {rows' : List (Stored ρ)} (hids : UniqueIds rows)
    (h : resolveDuplicates policy rows = .ok rows') :
    Condenses policy.Same (fun s => policy.scope s.row) (fun y x => le y.row x.row) rows rows' := by
  refine (foldlM_invariant (P := fun s => UniqueIds s ∧ Condenses policy.Same
    (fun s => policy.scope s.row) (fun y x => le y.row x.row) rows s) ?_ ?_ h).2
  · rintro s group s' ⟨hs, hcond⟩ hok
    obtain ⟨hs', hcond'⟩ := resolveGroup_condenses le hrank hcn hs hok
    exact ⟨hs', hcond.trans TablePolicy.Same.trans htrans hcond'⟩
  · exact ⟨hids, .refl TablePolicy.Same.refl (fun x => hrank _ _ le_rfl) _⟩

end

/-! ### Unique constraints -/

def TablePolicy.UniqueCns (policy : TablePolicy ρ β) (rows : List (Stored ρ)) : Prop :=
  (rows.map fun s => policy.cnKey s.row).Nodup

end

end Rvc.Slashing
