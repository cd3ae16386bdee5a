import Rvc.Doppelganger.Liveness
import Rvc.EthTypes.Canonical

/-!
# The index registry over its calls

`PubkeyIndexRegistry` keeps public keys by index and indices by public key. An insert that moves a key drops the
reverse entry of the index the key had, whoever holds that entry by then. So two keys that change places lose one
of the two reverse entries, and the validator behind it is not observed any more. As long as no key moves away from
an index that another key has too, every index that is given has a reverse entry (`Reversed`), and with one key an
index the two directions are inverse to each other.
-/

namespace Rvc.Doppelganger

open Rvc.Lib Rvc.EthTypes List AList

def parsePubkeyBytes (s : String) : Option PublicKey :=
  let hexStr := if startsWithHexPrefix s.toList then s.toList.drop 2 else s.toList
  match Hex.decode (String.ofList hexStr) with
  | .ok bytes => if h : bytes.length = 48 then some ⟨bytes, h⟩ else none
  | .error _ => none

namespace PubkeyIndexRegistry

/-! ### Calls -/

section

variable (r : PubkeyIndexRegistry)

def insertHex (pubkeyHex index : String) : PubkeyIndexRegistry × Bool :=
  match parsePubkeyBytes pubkeyHex with
  | some bytes => (r.insert bytes index, true)
  | none => (r, false)

def indexOf (pubkey : PublicKey) : Option String := r.byPubkey.lookup pubkey

def bareHexOfIndex (index : String) : Option String := r.byIndex.lookup index

def mergeHexMap (pubkeyToIndex : Table String String) : PubkeyIndexRegistry :=
  pubkeyToIndex.entries.foldl (fun r entry => (r.insertHex entry.1 entry.2).1) r

def mergeBytesMap (pubkeyToIndex : Table PublicKey String) : PubkeyIndexRegistry :=
  pubkeyToIndex.entries.foldl (fun r entry => r.insert entry.1 entry.2) r

def extendFrom (other : PubkeyIndexRegistry) : PubkeyIndexRegistry := r.mergeBytesMap other.byPubkey

/-- A call that changes the registry. Maps list their entries in the order in which they are gone through. -/
inductive Call where
  | insert (pubkey : PublicKey) (index : String)
  | insertHex (pubkeyHex index : String)
  | mergeHexMap (pubkeyToIndex : Table String String)
  | mergeBytesMap (pubkeyToIndex : Table PublicKey String)
  | extendFrom (other : PubkeyIndexRegistry)

def call : Call → PubkeyIndexRegistry
  | .insert pubkey index => r.insert pubkey index
  | .insertHex pubkeyHex index => (r.insertHex pubkeyHex index).1
  | .mergeHexMap pubkeyToIndex => r.mergeHexMap pubkeyToIndex
  | .mergeBytesMap pubkeyToIndex => r.mergeBytesMap pubkeyToIndex
  | .extendFrom other => r.extendFrom other

def run (calls : List Call) : PubkeyIndexRegistry := calls.foldl call r

/-! ### Calls as inserts -/

def parseEntry (entry : (_ : String) × String) : Option (PublicKey × String) :=
  (parsePubkeyBytes entry.1).map fun pubkey => (pubkey, entry.2)

def Call.inserts : Call → List (PublicKey × String)
  | .insert pubkey index => [(pubkey, index)]
  | .insertHex pubkeyHex index => [(⟨pubkeyHex, index⟩ : (_ : String) × String)].filterMap parseEntry
  | .mergeHexMap pubkeyToIndex => pubkeyToIndex.entries.filterMap parseEntry
  | .mergeBytesMap pubkeyToIndex => pubkeyToIndex.entries.map fun entry => (entry.1, entry.2)
  | .extendFrom other => other.byPubkey.entries.map fun entry => (entry.1, entry.2)

def insertAll (entries : List (PublicKey × String)) : PubkeyIndexRegistry :=
  entries.foldl (fun r entry => r.insert entry.1 entry.2) r

end

section

variable (r : PubkeyIndexRegistry)

theorem foldl_insertHex (entries : List ((_ : String) × String)) :
    entries.foldl (fun r entry => (r.insertHex entry.1 entry.2).1) r = r.insertAll (entries.filterMap parseEntry) := by
  induction entries generalizing r with
  | nil => rfl
  | cons entry entries ih =>
    rw [foldl_cons, ih, insertHex]
    cases hparse : parsePubkeyBytes entry.1 with
    | none => rw [filterMap_cons_none (by rw [parseEntry, hparse]; rfl)]
    | some pubkey =>
      rw [filterMap_cons_some (by rw [parseEntry, hparse]; rfl)]
      rfl

theorem foldl_insert (entries : List ((_ : PublicKey) × String)) :
    entries.foldl (fun r entry => r.insert entry.1 entry.2) r =
      r.insertAll (entries.map fun entry => (entry.1, entry.2)) := by
  rw [insertAll, foldl_map]

theorem call_eq_insertAll (c : Call) : r.call c = r.insertAll c.inserts := by
  cases c with
  | insert pubkey index => rfl
  | insertHex pubkeyHex index => exact r.foldl_insertHex [⟨pubkeyHex, index⟩]
  | mergeHexMap pubkeyToIndex => exact r.foldl_insertHex pubkeyToIndex.entries
  | mergeBytesMap pubkeyToIndex => exact r.foldl_insert pubkeyToIndex.entries
  | extendFrom other => exact r.foldl_insert other.byPubkey.entries

theorem run_eq_insertAll (calls : List Call) : r.run calls = r.insertAll (calls.flatMap Call.inserts) := by
  induction calls generalizing r with
  | nil => rfl
  | cons c calls ih =>
    rw [run, foldl_cons, ← run, ih, call_eq_insertAll, flatMap_cons, insertAll, insertAll, insertAll, foldl_append]

end

/-! ### The reverse direction -/

def MovesAlone (r : PubkeyIndexRegistry) (pubkey : PublicKey) (index : String) : Prop :=
  ∀ oldIndex, r.indexOf pubkey = some oldIndex → oldIndex ≠ index →
    ∀ other, r.indexOf other = some oldIndex → other = pubkey

def AllMoveAlone : PubkeyIndexRegistry → List (PublicKey × String) → Prop
  | _, [] => True
  | r, entry :: entries => r.MovesAlone entry.1 entry.2 ∧ AllMoveAlone (r.insert entry.1 entry.2) entries

def Reversed (r : PubkeyIndexRegistry) : Prop :=
  ∀ pubkey index, r.indexOf pubkey = some index → ∃ bare, r.bareHexOfIndex index = some bare

variable {r : PubkeyIndexRegistry} {pubkey : PublicKey} {index : String}

theorem indexOf_new (pubkey : PublicKey) : new.indexOf pubkey = none := AList.lookup_empty _

theorem indexOf_insert (other : PublicKey) :
    (r.insert pubkey index).indexOf other = if other = pubkey then some index else r.indexOf other := by
  split
  · next h =>
    rw [h]
    exact lookup_insert _
  · next h => exact lookup_insert_ne h

theorem bareHexOfIndex_insert_self : (r.insert pubkey index).bareHexOfIndex index = some (pubkeyHex pubkey) :=
  lookup_insert _

theorem bareHexOfIndex_insert_ne {other : String} (hother : other ≠ index) (hold : r.indexOf pubkey ≠ some other) :
    (r.insert pubkey index).bareHexOfIndex other = r.bareHexOfIndex other := by
  show ((r.dropStale pubkey index).insert index (pubkeyHex pubkey)).lookup other = r.byIndex.lookup other
  rw [lookup_insert_ne hother, dropStale]
  cases hlookup : r.byPubkey.lookup pubkey with
  | none => rfl
  | some oldIndex =>
    have hne : other ≠ oldIndex := fun heq => hold (by rw [indexOf, hlookup, heq])
    show (if oldIndex ≠ index then r.byIndex.erase oldIndex else r.byIndex).lookup other = _
    split
    · exact lookup_erase_ne hne
    · rfl

theorem Reversed.insert (h : r.Reversed) (halone : r.MovesAlone pubkey index) : (r.insert pubkey index).Reversed := by
  intro other otherIndex hother
  by_cases hindex : otherIndex = index
  · exact ⟨pubkeyHex pubkey, by rw [hindex, bareHexOfIndex_insert_self]⟩
  · have hne : other ≠ pubkey := by
      rintro rfl
      rw [indexOf_insert, if_pos rfl] at hother
      exact hindex (Option.some.inj hother).symm
    rw [indexOf_insert, if_neg hne] at hother
    have hold : r.indexOf pubkey ≠ some otherIndex := fun heq => hne (halone otherIndex heq hindex other hother)
    rw [bareHexOfIndex_insert_ne hindex hold]
    exact h other otherIndex hother

theorem Reversed.insertAll {entries : List (PublicKey × String)} (h : r.Reversed) (halone : AllMoveAlone r entries) :
    (r.insertAll entries).Reversed := by
  induction entries generalizing r with
  | nil => exact h
  | cons entry entries ih => exact ih (h.insert halone.1) halone.2

theorem reversed_new : new.Reversed := by
  intro pubkey index h
  cases h

/-- After any calls whose moves are alone, and with no two keys on one index, the two directions are inverse to each
other. -/
theorem bareHexOfIndex_eq_some_iff (calls : List Call) (halone : AllMoveAlone new (calls.flatMap Call.inserts))
    (hdistinct : ∀ pubkey other index, (new.run calls).indexOf pubkey = some index →
      (new.run calls).indexOf other = some index → pubkey = other) (pubkey : PublicKey) (index : String) :
    (new.run calls).bareHexOfIndex index = some (pubkeyHex pubkey) ↔ (new.run calls).indexOf pubkey = some index := by
  constructor
  · exact (new.run calls).indexOf_of_byIndex
  · intro hindex
    have hreversed : (new.run calls).Reversed := by
      rw [run_eq_insertAll]
      exact reversed_new.insertAll halone
    obtain ⟨bare, hbare⟩ := hreversed pubkey index hindex
    obtain ⟨other, rfl, hother⟩ := (new.run calls).agree index bare hbare
    rw [hdistinct pubkey other index hindex hother]
    exact hbare

def firstValidator : PublicKey := ⟨List.replicate 48 26, rfl⟩

def secondValidator : PublicKey := ⟨List.replicate 48 27, rfl⟩

/-- Both are known, and one of them moves to an index of its own. -/
def oneMoves : List Call := [.insert firstValidator "1", .insert secondValidator "2", .insert firstValidator "3"]

theorem bareHexOfIndex_eq_some_iff_oneMoves :
    (new.run oneMoves).bareHexOfIndex "3" = some (pubkeyHex firstValidator) := by
  have hne : secondValidator ≠ firstValidator := by decide
  refine (bareHexOfIndex_eq_some_iff oneMoves ?_ ?_ firstValidator "3").mpr (lookup_insert _)
  · refine ⟨?_, ?_, ?_, trivial⟩
    · intro oldIndex h
      rw [indexOf_new] at h
      cases h
    · intro oldIndex h
      rw [indexOf_insert, if_neg hne, indexOf_new] at h
      cases h
    · intro oldIndex h _ other hother
      simp only [indexOf_insert, indexOf_new, if_neg hne.symm, if_true, Option.some.injEq] at h hother
      grind
  · intro pubkey other index hpubkey hother
    simp only [oneMoves, run, foldl_cons, foldl_nil, call, indexOf_insert, indexOf_new] at hpubkey hother
    grind

def changePlaces : List Call :=
  [.insert firstValidator "1", .insert secondValidator "2", .insert firstValidator "2", .insert secondValidator "1"]

/-- Two validators that change places have an index each, but the reverse entry of one of them is gone, and what
nodes report for its index is dropped. -/
theorem reverse_entry_lost : (new.run changePlaces).indexOf firstValidator = some "2" ∧
      (new.run changePlaces).indexOf secondValidator = some "1" ∧
      (new.run changePlaces).bareHexOfIndex "2" = none ∧ translate (new.run changePlaces) [⟨"2", true⟩] = [] := by
  refine ⟨?_, ?_, ?_, ?_⟩
  · decide +kernel
  · decide +kernel
  · decide +kernel
  · decide +kernel

end PubkeyIndexRegistry

end Rvc.Doppelganger
