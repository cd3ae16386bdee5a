import Mathlib.Data.Finset.Insert
import Rvc.EthTypes.PubkeyHex
import Rvc.Lib.Lines

/-!
# The file of the deletion denylist

`rvc::deletion_denylist` keeps the public keys that were deleted over the keymanager API in a file, a key a line, and
reads it at the next start. Reading skips blank lines and comments and fails on any other line that is no key, so
that what a file comes to is decided line by line (`loadKeysFromFile_eq_ok_iff`). A key is recorded by an append to
whatever the file ends with; a key is cleared by a rewrite to a sibling that is renamed over the file. Either can
fail at any of its operations, after the file has changed too.
-/

namespace Rvc.DeletionDenylist

open Rvc.Lib Rvc.EthTypes List String

inductive Location where
  | dataDir
  | deletedKeys
  | deletedKeysTmp
  deriving DecidableEq

inductive DeletionDenylistError where
  | io (path : Location) (source : String)
  | invalidLine (line : List Char)
  deriving DecidableEq

/-! ### Reading -/

def skips (trimmed : List Char) : Bool := trimmed.isEmpty || trimmed.head? = some '#'

def parsePubkeyLine (line : List Char) : Option PubkeyHex :=
  let trimmed := trim line
  if skips trimmed then none else (parsePubkeyHex (String.ofList trimmed)).toOption

def loadLine (keys : Finset PubkeyHex) (line : List Char) : Except DeletionDenylistError (Finset PubkeyHex) :=
  let trimmed := trim line
  if skips trimmed then .ok keys
  else match parsePubkeyLine trimmed with
    | some pubkey => .ok (insert pubkey keys)
    | none => .error (.invalidLine trimmed)

def loadKeysFromFile (text : List Char) : Except DeletionDenylistError (Finset PubkeyHex) :=
  (bufLines text).foldlM loadLine ∅

def load : Option (List Char) → Except DeletionDenylistError (Finset PubkeyHex)
  | some text => loadKeysFromFile text
  | none => .ok ∅

inductive LineKind where
  | skipped
  | key (pubkey : PubkeyHex)
  | invalid
  deriving DecidableEq

def lineKind (line : List Char) : LineKind :=
  if skips (trim line) then .skipped
  else match parsePubkeyHex (String.ofList (trim line)) with
    | .ok pubkey => .key pubkey
    | .error _ => .invalid

section Kinds

variable {line : List Char} {pubkey : PubkeyHex}

theorem lineKind_nil : lineKind [] = .skipped := rfl

theorem lineKind_stripCr (line : List Char) : lineKind (stripCr line) = lineKind line := by
  rw [lineKind, lineKind, trim_stripCr]

theorem lineKind_of_blank (h : Blank line) : lineKind line = .skipped := by
  rw [lineKind, trim_eq_nil_iff.mpr h]
  rfl

theorem lineKind_eq_key_iff : lineKind line = .key pubkey ↔
      skips (trim line) = false ∧ parsePubkeyHex (String.ofList (trim line)) = .ok pubkey := by
  unfold lineKind
  cases hskips : skips (trim line) with
  | true => simp
  | false => cases parsePubkeyHex (ofList (trim line)) <;> simp

theorem lineKind_eq_invalid (hskips : skips (trim line) = false) (htext : ¬ PubkeyText (trim line)) :
    lineKind line = .invalid := by
  unfold lineKind
  rw [hskips]
  cases hparse : parsePubkeyHex (ofList (trim line)) with
  | error e => rfl
  | ok pubkey =>
    have := pubkeyText_of_parse hparse
    rw [toList_ofList] at this
    exact absurd this htext

theorem pubkeyText_of_lineKind (h : lineKind line = .key pubkey) : PubkeyText (trim line) := by
  have := pubkeyText_of_parse (lineKind_eq_key_iff.mp h).2
  rwa [toList_ofList] at this

theorem loadLine_skipped (h : lineKind line = .skipped) (keys : Finset PubkeyHex) : loadLine keys line = .ok keys := by
  unfold lineKind at h
  cases hskips : skips (trim line) with
  | true => simp [loadLine, hskips]
  | false =>
    rw [hskips] at h
    cases hparse : parsePubkeyHex (ofList (trim line)) <;> simp [hparse] at h

theorem loadLine_key (h : lineKind line = .key pubkey) (keys : Finset PubkeyHex) :
    loadLine keys line = .ok (insert pubkey keys) := by
  obtain ⟨hskips, hparse⟩ := lineKind_eq_key_iff.mp h
  simp [loadLine, parsePubkeyLine, trim_trim, hskips, hparse, Except.toOption]

theorem loadLine_invalid (h : lineKind line = .invalid) (keys : Finset PubkeyHex) :
    loadLine keys line = .error (.invalidLine (trim line)) := by
  unfold lineKind at h
  cases hskips : skips (trim line) with
  | true => simp [hskips] at h
  | false =>
    cases hparse : parsePubkeyHex (ofList (trim line)) with
    | error e => simp [loadLine, parsePubkeyLine, trim_trim, hskips, hparse, Except.toOption]
    | ok pubkey => simp [hskips, hparse] at h

end Kinds

open LineKind

theorem foldlM_loadLine_eq_ok_iff (lines : List (List Char)) (keys loaded : Finset PubkeyHex) :
    lines.foldlM loadLine keys = .ok loaded ↔ (∀ line ∈ lines, lineKind line ≠ .invalid) ∧
        ∀ pubkey, pubkey ∈ loaded ↔ pubkey ∈ keys ∨ ∃ line ∈ lines, lineKind line = .key pubkey := by
  induction lines generalizing keys with
  | nil => simp [pure, Except.pure, Finset.ext_iff, iff_comm]
  | cons line lines ih =>
    rw [foldlM_cons]
    cases hkind : lineKind line with
    | skipped =>
      rw [loadLine_skipped hkind]
      show lines.foldlM loadLine keys = _ ↔ _
      simp [ih, hkind]
    | key recorded =>
      rw [loadLine_key hkind]
      show lines.foldlM loadLine (insert recorded keys) = _ ↔ _
      simp only [ih, forall_mem_cons, hkind, exists_mem_cons_iff, Finset.mem_insert, key.injEq]
      constructor
      · rintro ⟨hvalid, hmem⟩
        exact ⟨⟨nofun, hvalid⟩, fun pubkey => by rw [hmem]; tauto⟩
      · rintro ⟨⟨-, hvalid⟩, hmem⟩
        exact ⟨hvalid, fun pubkey => by rw [hmem]; tauto⟩
    | invalid =>
      rw [loadLine_invalid hkind]
      simp [bind, Except.bind, hkind]

def Holds (text : List Char) (kind : LineKind) : Prop := ∃ line ∈ (scan text).lines, lineKind line = kind

theorem exists_mem_bufLines_iff {text : List Char} {kind : LineKind} (hkind : kind ≠ .skipped) :
    (∃ line ∈ bufLines text, lineKind line = kind) ↔ Holds text kind := by
  have hlast : (∃ line ∈ if (scan text).last = [] then [] else [(scan text).last], lineKind line = kind) ↔
      lineKind (scan text).last = kind := by
    split
    · next hnil => simp [hnil, lineKind_nil, hkind.symm]
    · simp
  simp only [bufLines, Holds, Scan.lines, mem_append, or_and_right, exists_or, hlast, mem_map,
    mem_singleton, exists_eq_left]
  refine or_congr_left ⟨?_, ?_⟩
  · rintro ⟨line, ⟨raw, hraw, rfl⟩, hline⟩
    exact ⟨raw, hraw, by rw [← lineKind_stripCr, hline]⟩
  · rintro ⟨raw, hraw, hline⟩
    exact ⟨stripCr raw, ⟨raw, hraw, rfl⟩, by rw [lineKind_stripCr, hline]⟩

theorem loadKeysFromFile_eq_ok_iff {text : List Char} {loaded : Finset PubkeyHex} : loadKeysFromFile text = .ok loaded ↔
      ¬ Holds text .invalid ∧ ∀ pubkey, pubkey ∈ loaded ↔ Holds text (.key pubkey) := by
  have hvalid : (∀ line ∈ bufLines text, lineKind line ≠ .invalid) ↔ ¬ Holds text .invalid := by
    rw [← exists_mem_bufLines_iff (show invalid ≠ .skipped by decide)]
    push Not
    rfl
  rw [loadKeysFromFile, foldlM_loadLine_eq_ok_iff, hvalid]
  simp only [Finset.notMem_empty, false_or]
  refine and_congr_right fun _ => forall_congr' fun pubkey => ?_
  rw [exists_mem_bufLines_iff (show key pubkey ≠ .skipped by simp)]

theorem load_eq (file : Option (List Char)) : load file = loadKeysFromFile (file.getD []) := by
  cases file <;> rfl

/-! ### Writing -/

def formatPubkeyLine (pubkey : PubkeyHex) : List Char := pubkeyToHex pubkey ++ ['\n']

structure Fault (Op : Type) where
  op : Op
  source : String
  deriving DecidableEq

/-- The operations of an append. The write may have come to any number of characters. -/
inductive AppendOp where
  | createDirAll
  | openFile
  | writeAll (written : Nat)
  | syncAll
  | setPermissions
  deriving DecidableEq

def appendPubkey (file : Option (List Char)) (pubkey : PubkeyHex) :
    Option (Fault AppendOp) → Option (List Char) × Except DeletionDenylistError Unit
  | some ⟨.createDirAll, source⟩ => (file, .error (.io .dataDir source))
  | some ⟨.openFile, source⟩ => (file, .error (.io .deletedKeys source))
  | some ⟨.writeAll written, source⟩ =>
    (some (file.getD [] ++ (formatPubkeyLine pubkey).take written), .error (.io .deletedKeys source))
  -- the line is there, and stays
  | some ⟨.syncAll, source⟩ => (some (file.getD [] ++ formatPubkeyLine pubkey), .error (.io .deletedKeys source))
  | some ⟨.setPermissions, source⟩ => (some (file.getD [] ++ formatPubkeyLine pubkey), .error (.io .deletedKeys source))
  | none => (some (file.getD [] ++ formatPubkeyLine pubkey), .ok ())

/-- The operations of a rewrite: the first for an empty set, the others for any other. -/
inductive RewriteOp where
  | removeFile
  | openTmp
  | writeTmp
  | syncTmp
  | rename
  | setPermissions
  deriving DecidableEq

structure Iteration where
  order : Finset PubkeyHex → List PubkeyHex
  mem_order : ∀ keys pubkey, pubkey ∈ order keys ↔ pubkey ∈ keys

/-- The file after a rewrite, and its result. The sibling is truncated when it is opened, so that what an earlier
rewrite left there does not matter. -/
def rewriteFile (file : Option (List Char)) (keys : Finset PubkeyHex) (iteration : Iteration)
    (fault : Option (Fault RewriteOp)) : Option (List Char) × Except DeletionDenylistError Unit :=
  let text := (iteration.order keys).flatMap formatPubkeyLine
  if keys = ∅ then
    match fault with
    | some ⟨.removeFile, source⟩ => (file, .error (.io .deletedKeys source))
    | _ => (none, .ok ())
  else
    match fault with
    | some ⟨.openTmp, source⟩ => (file, .error (.io .deletedKeysTmp source))
    | some ⟨.writeTmp, source⟩ => (file, .error (.io .deletedKeysTmp source))
    | some ⟨.syncTmp, source⟩ => (file, .error (.io .deletedKeysTmp source))
    | some ⟨.rename, source⟩ => (file, .error (.io .deletedKeys source))
    -- the file is the new one already
    | some ⟨.setPermissions, source⟩ => (some text, .error (.io .deletedKeys source))
    | _ => (some text, .ok ())

def FailsAfterRename (keys : Finset PubkeyHex) (fault : Option (Fault RewriteOp)) : Prop :=
  keys ≠ ∅ ∧ fault.map (·.op) = some .setPermissions

instance (keys : Finset PubkeyHex) (fault : Option (Fault RewriteOp)) : Decidable (FailsAfterRename keys fault) :=
  inferInstanceAs (Decidable (_ ∧ _))

section Written

variable (pubkey : PubkeyHex)

theorem solid_pubkeyToHex : ∀ c ∈ pubkeyToHex pubkey, isWhitespace c = false := by
  intro c hc
  have hdigit : ∀ n < 16, isWhitespace (Nat.digitChar n) = false := by decide
  simp only [pubkeyToHex, mem_cons] at hc
  rcases hc with rfl | rfl | hc
  · decide
  · decide
  · obtain ⟨n, hn, rfl⟩ := Hex.mem_encode hc
    exact hdigit n hn

theorem newline_notMem {text : List Char} (h : ∀ c ∈ text, isWhitespace c = false) : '\n' ∉ text := by
  intro hmem
  have := h _ hmem
  revert this
  decide

theorem pubkeyToHex_ne_nil : pubkeyToHex pubkey ≠ [] := cons_ne_nil _ _

theorem lineKind_blank_append {line : List Char} (h : Blank line) : lineKind
    (line ++ pubkeyToHex pubkey) = .key pubkey := by
  rw [lineKind_eq_key_iff, trim_append_of_blank h (pubkeyToHex_ne_nil pubkey) (solid_pubkeyToHex pubkey)]
  exact ⟨rfl, parsePubkeyHex_pubkeyToHex pubkey⟩

theorem lineKind_pubkeyToHex : lineKind (pubkeyToHex pubkey) = .key pubkey :=
  @lineKind_blank_append pubkey [] nofun

end Written

theorem appendPubkey_adds (file : Option (List Char)) (pubkey : PubkeyHex) (fault : Option (Fault AppendOp)) :
    ∃ chunk, chunk <+: formatPubkeyLine pubkey ∧ (appendPubkey file pubkey fault).1.getD [] = file.getD [] ++ chunk ∧
      ((appendPubkey file pubkey fault).2 = .ok () → fault = none ∧ chunk = formatPubkeyLine pubkey) := by
  match fault with
  | some ⟨.createDirAll, source⟩ | some ⟨.openFile, source⟩ => exact ⟨[], nil_prefix, (append_nil _).symm, nofun⟩
  | some ⟨.writeAll written, source⟩ => exact ⟨_, take_prefix _ _, rfl, nofun⟩
  | some ⟨.syncAll, source⟩ | some ⟨.setPermissions, source⟩ => exact ⟨_, prefix_rfl, rfl, nofun⟩
  | none => exact ⟨_, prefix_rfl, rfl, fun _ => ⟨rfl, rfl⟩⟩

variable {keys : Finset PubkeyHex}

theorem loadKeysFromFile_written {order : List PubkeyHex} (h : ∀ pubkey, pubkey ∈ order ↔ pubkey ∈ keys) :
    loadKeysFromFile (order.flatMap formatPubkeyLine) = .ok keys := by
  have hscan : scan (order.flatMap formatPubkeyLine) = ⟨order.map pubkeyToHex, []⟩ := by
    have hlines : ∀ line ∈ order.map pubkeyToHex, '\n' ∉ line := by
      intro line hline
      obtain ⟨pubkey, -, rfl⟩ := mem_map.mp hline
      exact newline_notMem (solid_pubkeyToHex pubkey)
    rw [← scan_flatMap hlines, flatMap_map]
    rfl
  have hholds : ∀ kind, Holds (order.flatMap formatPubkeyLine) kind ↔
      (∃ pubkey ∈ order, key pubkey = kind) ∨ skipped = kind := by
    intro kind
    simp only [Holds, hscan, Scan.mem_lines, or_and_right, exists_or, exists_eq_left, lineKind_nil, mem_map]
    refine or_congr_left ⟨?_, ?_⟩
    · rintro ⟨line, ⟨pubkey, hpubkey, rfl⟩, hkind⟩
      exact ⟨pubkey, hpubkey, by rw [← hkind, lineKind_pubkeyToHex]⟩
    · rintro ⟨pubkey, hpubkey, hkind⟩
      exact ⟨_, ⟨pubkey, hpubkey, rfl⟩, by rw [← hkind, lineKind_pubkeyToHex]⟩
  rw [loadKeysFromFile_eq_ok_iff]
  simp [hholds, h]

section

variable {file : Option (List Char)} {iteration : Iteration} {fault : Option (Fault RewriteOp)}

theorem load_rewriteFile (h : (rewriteFile file keys iteration fault).2 = .ok ()) :
    load (rewriteFile file keys iteration fault).1 = .ok keys := by
  have hwritten := loadKeysFromFile_written (iteration.mem_order keys)
  unfold rewriteFile at h ⊢
  by_cases hempty : keys = ∅
  · subst hempty
    match fault with
    | some ⟨.removeFile, source⟩ => cases h
    | some ⟨.openTmp, source⟩ | some ⟨.writeTmp, source⟩ | some ⟨.syncTmp, source⟩ | some ⟨.rename, source⟩
    | some ⟨.setPermissions, source⟩ | none => rfl
  · simp only [if_neg hempty] at h ⊢
    match fault with
    | some ⟨.removeFile, source⟩ | none => exact hwritten
    | some ⟨.openTmp, source⟩ | some ⟨.writeTmp, source⟩ | some ⟨.syncTmp, source⟩ | some ⟨.rename, source⟩
    | some ⟨.setPermissions, source⟩ => cases h

theorem rewriteFile_unchanged {e : DeletionDenylistError}
    (h : (rewriteFile file keys iteration fault).2 = .error e) (hbefore : ¬ FailsAfterRename keys fault) :
    (rewriteFile file keys iteration fault).1 = file := by
  unfold rewriteFile at h ⊢
  by_cases hempty : keys = ∅
  · subst hempty
    match fault with
    | some ⟨.removeFile, source⟩ => rfl
    | some ⟨.openTmp, source⟩ | some ⟨.writeTmp, source⟩ | some ⟨.syncTmp, source⟩ | some ⟨.rename, source⟩
    | some ⟨.setPermissions, source⟩ | none => cases h
  · simp only [if_neg hempty] at h ⊢
    match fault with
    | some ⟨.removeFile, source⟩ | none => cases h
    | some ⟨.openTmp, source⟩ | some ⟨.writeTmp, source⟩ | some ⟨.syncTmp, source⟩ | some ⟨.rename, source⟩ => rfl
    | some ⟨.setPermissions, source⟩ => exact absurd ⟨hempty, rfl⟩ hbefore

end

end Rvc.DeletionDenylist
