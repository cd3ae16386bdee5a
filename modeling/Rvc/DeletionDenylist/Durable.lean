import Mathlib.Data.Finset.Basic
import Mathlib.Data.Finset.Dedup
import Rvc.DeletionDenylist.File

/-!
# The deletion denylist over its calls

`DeletionDenylist` holds the keys in memory and changes file and memory together, with a rollback of the memory when
the file operation fails. The keys in memory should be in the file, or a restart brings a deleted key back. Two
steps break that: an insert that appends to an unended comment becomes part of it, and a remove whose last operation
fails takes the key back into memory after the file without it is in place. In every other step the keys stay in
the file, or the file has a line that fails the load (`Covered`).
-/

namespace Rvc.DeletionDenylist

open Rvc.Lib Rvc.EthTypes List Scan

/-! ### Calls -/

structure State where
  file : Option (List Char)
  keys : Finset PubkeyHex
  deriving DecidableEq

namespace State

section

variable (s : State) (pubkey : PubkeyHex)

def contains : Bool := pubkey ∈ s.keys

def insert (fault : Option (Fault AppendOp)) : State × Except DeletionDenylistError Unit :=
  if pubkey ∈ s.keys then (s, .ok ())
  else
    let keys := Insert.insert pubkey s.keys
    match appendPubkey s.file pubkey fault with
    | (file, .ok ()) => (⟨file, keys⟩, .ok ())
    | (file, .error e) => (⟨file, keys.erase pubkey⟩, .error e)

def remove (iteration : Iteration) (fault : Option (Fault RewriteOp)) : State × Except DeletionDenylistError Unit :=
  if pubkey ∉ s.keys then (s, .ok ())
  else
    let keys := s.keys.erase pubkey
    match rewriteFile s.file keys iteration fault with
    | (file, .ok ()) => (⟨file, keys⟩, .ok ())
    | (file, .error e) => (⟨file, Insert.insert pubkey keys⟩, .error e)

def text : List Char := s.file.getD []

end

end State

inductive Call where
  | insert (pubkey : PubkeyHex) (fault : Option (Fault AppendOp))
  | remove (pubkey : PubkeyHex) (iteration : Iteration) (fault : Option (Fault RewriteOp))

def State.call (s : State) : Call → State × Except DeletionDenylistError Unit
  | .insert pubkey fault => s.insert pubkey fault
  | .remove pubkey iteration fault => s.remove pubkey iteration fault

def State.run (s : State) (calls : List Call) : State := calls.foldl (fun s call => (s.call call).1) s

def Along (P : State → Call → Prop) : State → List Call → Prop
  | _, [] => True
  | s, call :: calls => P s call ∧ Along P (s.call call).1 calls

theorem Along.keeps {P : State → Call → Prop} {Inv : State → Prop}
    (hstep : ∀ s call, P s call → Inv s → Inv (s.call call).1) {s : State} {calls : List Call} (h : Along P s calls)
    (hs : Inv s) : Inv (s.run calls) := by
  induction calls generalizing s with
  | nil => exact hs
  | cons call calls ih => exact ih h.2 (hstep s call h.1 hs)

def Comment (line : List Char) : Prop := (trim line).head? = some '#'

instance (line : List Char) : Decidable (Comment line) := inferInstanceAs (Decidable (_ = _))

/-- An insert that succeeds does not append to an unended comment, and a remove does not fail after the rename. -/
def Careful (s : State) : Call → Prop
  | .insert pubkey fault => pubkey ∉ s.keys → fault = none → ¬ Comment (scan s.text).last
  | .remove pubkey _ fault => pubkey ∈ s.keys → ¬ FailsAfterRename (s.keys.erase pubkey) fault

def StartsLine (s : State) : Call → Prop
  | .insert pubkey _ => pubkey ∉ s.keys → Blank (scan s.text).last
  | .remove _ _ _ => True

def Clean (s : State) (call : Call) : Prop := (s.call call).2 = .ok () ∧ StartsLine s call

/-! ### Lines that an append makes longer -/

section Longer

variable {line ext : List Char} {pubkey : PubkeyHex}

theorem skips_eq_false_iff {trimmed : List Char} : skips trimmed = false ↔ trimmed ≠ [] ∧ trimmed.head? ≠ some '#' := by
  simp [skips]

theorem not_blank_of_skips (h : skips (trim line) = false) : ¬ Blank line :=
  fun hblank => (skips_eq_false_iff.mp h).1 (trim_eq_nil_iff.mpr hblank)

theorem skips_append {rest : List Char} (h : skips (trim line) = false) : skips (trim line ++ rest) = false := by
  obtain ⟨hne, hhead⟩ := skips_eq_false_iff.mp h
  refine skips_eq_false_iff.mpr ⟨by simp [hne], ?_⟩
  rwa [List.head?_append_of_ne_nil _ hne]

theorem lineKind_key_append (h : lineKind line = .key pubkey) (hext : ext ≠ [])
    (hsolid : ∀ c ∈ ext, isWhitespace c = false) : lineKind (line ++ ext) = .invalid := by
  have hskips := (lineKind_eq_key_iff.mp h).1
  obtain ⟨between, htrim⟩ := trim_append (not_blank_of_skips hskips) hext hsolid
  rw [append_assoc] at htrim
  refine lineKind_eq_invalid ?_ ?_
  · rw [htrim]
    exact skips_append hskips
  · rw [htrim]
    exact (pubkeyText_of_lineKind h).not_append (by simp [hext])

theorem lineKind_append_pubkeyToHex (hblank : ¬ Blank line) (hcomment : ¬ Comment line) (pubkey : PubkeyHex) :
    lineKind (line ++ pubkeyToHex pubkey) = .invalid := by
  have hne : trim line ≠ [] := fun hnil => hblank (trim_eq_nil_iff.mp hnil)
  have hskips : skips (trim line) = false := skips_eq_false_iff.mpr ⟨hne, hcomment⟩
  obtain ⟨between, htrim⟩ := trim_append hblank (pubkeyToHex_ne_nil pubkey) (solid_pubkeyToHex pubkey)
  rw [append_assoc] at htrim
  refine lineKind_eq_invalid ?_ ?_
  · rw [htrim]
    exact skips_append hskips
  · intro htext
    have hlen := htext.length
    have hpos := length_pos_iff.mpr hne
    rw [htrim, length_append, length_append, length_pubkeyToHex] at hlen
    omega

def Spoiled (line : List Char) : Prop := ∀ ext, (∀ c ∈ ext, isWhitespace c = false) → lineKind (line ++ ext) = .invalid

theorem Spoiled.invalid (h : Spoiled line) : lineKind line = .invalid := by
  simpa using h [] nofun

def Kept (line : List Char) (pubkey : PubkeyHex) : Prop := lineKind line = .key pubkey ∨ Spoiled line

theorem Kept.append (h : Kept line pubkey) (hsolid : ∀ c ∈ ext, isWhitespace c = false) : Kept
    (line ++ ext) pubkey := by
  rcases h with hkey | hspoiled
  · by_cases hext : ext = []
    · exact .inl (by rw [hext, append_nil, hkey])
    · refine .inr fun more hmore => ?_
      rw [append_assoc]
      refine lineKind_key_append hkey (by simp [hext]) fun c hc => ?_
      exact (mem_append.mp hc).elim (hsolid c) (hmore c)
  · refine .inr fun more hmore => ?_
    rw [append_assoc]
    exact hspoiled _ fun c hc => (mem_append.mp hc).elim (hsolid c) (hmore c)

theorem Kept.kind (h : Kept line pubkey) : lineKind line = .key pubkey ∨ lineKind line = .invalid :=
  h.imp id Spoiled.invalid

end Longer

/-! ### The keys in memory are in the file -/

def Covered (text : List Char) (keys : Finset PubkeyHex) : Prop :=
  (∃ line ∈ (scan text).ended, lineKind line = .invalid) ∨
    ∀ pubkey ∈ keys, (∃ line ∈ (scan text).ended, lineKind line = .key pubkey) ∨ Kept (scan text).last pubkey

section Covered

variable {text : List Char} {keys loaded : Finset PubkeyHex}

theorem covered_of_load (h : loadKeysFromFile text = .ok keys) : Covered text keys := by
  refine .inr fun pubkey hpubkey => ?_
  obtain ⟨line, hline, hkind⟩ := ((loadKeysFromFile_eq_ok_iff.mp h).2 pubkey).mp hpubkey
  rcases mem_lines.mp hline with hended | rfl
  · exact .inl ⟨line, hended, hkind⟩
  · exact .inr (.inl hkind)

section

variable (h : Covered text keys)

include h

theorem Covered.subset (hload : loadKeysFromFile text = .ok loaded) : keys ⊆ loaded := by
  obtain ⟨hvalid, hmem⟩ := loadKeysFromFile_eq_ok_iff.mp hload
  rcases h with ⟨line, hended, hkind⟩ | hkeys
  · exact absurd ⟨line, mem_lines.mpr (.inl hended), hkind⟩ hvalid
  · intro pubkey hpubkey
    rw [hmem]
    rcases hkeys pubkey hpubkey with ⟨line, hended, hkind⟩ | hkey | hspoiled
    · exact ⟨line, mem_lines.mpr (.inl hended), hkind⟩
    · exact ⟨_, mem_lines.mpr (.inr rfl), hkey⟩
    · exact absurd ⟨_, mem_lines.mpr (.inr rfl), hspoiled.invalid⟩ hvalid

theorem Covered.append_chunk {chunk : List Char} (hsolid : ∀ c ∈ chunk, isWhitespace c = false) :
    Covered (text ++ chunk) keys := by
  unfold Covered
  rw [scan_append_chunk text (newline_notMem hsolid)]
  exact h.imp_right fun hkeys pubkey hpubkey => (hkeys pubkey hpubkey).imp_right fun hkept => hkept.append hsolid

theorem Covered.append_line (pubkey : PubkeyHex) : Covered (text ++ formatPubkeyLine pubkey) keys := by
  unfold Covered
  rw [formatPubkeyLine, scan_append_line text (newline_notMem (solid_pubkeyToHex pubkey))]
  simp only [mem_append, mem_singleton, or_and_right, exists_or, exists_eq_left]
  by_cases hinvalid : lineKind ((scan text).last ++ pubkeyToHex pubkey) = .invalid
  · exact .inl (.inr hinvalid)
  · refine h.imp .inl fun hkeys other hother => .inl ?_
    refine (hkeys other hother).imp_right fun hkept => ?_
    exact (hkept.append (solid_pubkeyToHex pubkey)).kind.resolve_right hinvalid

theorem Covered.append {pubkey : PubkeyHex} {chunk : List Char}
    (hchunk : chunk <+: formatPubkeyLine pubkey) : Covered (text ++ chunk) keys := by
  rcases prefix_concat_iff.mp hchunk with rfl | hpart
  · exact h.append_line pubkey
  · exact h.append_chunk fun c hc => solid_pubkeyToHex pubkey c (hpart.subset hc)

theorem Covered.record {pubkey : PubkeyHex} (hcomment : ¬ Comment (scan text).last) :
    Covered (text ++ formatPubkeyLine pubkey) (insert pubkey keys) := by
  have hold := h.append_line pubkey
  unfold Covered at hold ⊢
  rw [formatPubkeyLine, scan_append_line text (newline_notMem (solid_pubkeyToHex pubkey))] at hold ⊢
  have hmem : (scan text).last ++ pubkeyToHex pubkey ∈
      (scan text).ended ++ [(scan text).last ++ pubkeyToHex pubkey] := by
    simp
  by_cases hblank : Blank (scan text).last
  · refine hold.imp_right fun hkeys other hother => ?_
    rcases Finset.mem_insert.mp hother with rfl | hother
    · exact .inl ⟨_, hmem, lineKind_blank_append other hblank⟩
    · exact hkeys other hother
  · exact .inl ⟨_, hmem, lineKind_append_pubkeyToHex hblank hcomment pubkey⟩

end

end Covered

section Skipped

variable {text : List Char} {keys : Finset PubkeyHex}

theorem holds_append_line (hlast : lineKind (scan text).last = .skipped) (pubkey : PubkeyHex) {kind : LineKind}
    (hkind : kind ≠ .skipped) : Holds (text ++ formatPubkeyLine pubkey) kind ↔
      Holds text kind ∨ lineKind ((scan text).last ++ pubkeyToHex pubkey) = kind := by
  have hscan := scan_append_line text (newline_notMem (solid_pubkeyToHex pubkey))
  simp only [Holds, formatPubkeyLine, hscan, mem_lines, mem_append, mem_singleton, or_and_right,
    exists_or, exists_eq_left, lineKind_nil, hlast, hkind.symm, or_false]

theorem loadKeysFromFile_record (h : loadKeysFromFile text = .ok keys) (hblank : Blank (scan text).last)
    (pubkey : PubkeyHex) : loadKeysFromFile (text ++ formatPubkeyLine pubkey) = .ok (insert pubkey keys) := by
  have hlast := lineKind_of_blank hblank
  obtain ⟨hvalid, hmem⟩ := loadKeysFromFile_eq_ok_iff.mp h
  rw [loadKeysFromFile_eq_ok_iff, holds_append_line hlast pubkey (by decide), lineKind_blank_append pubkey hblank]
  refine ⟨by simpa using hvalid, fun other => ?_⟩
  rw [holds_append_line hlast pubkey (by simp), lineKind_blank_append pubkey hblank, Finset.mem_insert, hmem,
    LineKind.key.injEq, or_comm, eq_comm]

theorem loadKeysFromFile_spoiled (hblank : ¬ Blank (scan text).last) (hcomment : ¬ Comment (scan text).last)
    (pubkey : PubkeyHex) : loadKeysFromFile (text ++ formatPubkeyLine pubkey) ≠ .ok keys := by
  intro h
  have hscan := scan_append_line text (newline_notMem (solid_pubkeyToHex pubkey))
  refine (loadKeysFromFile_eq_ok_iff.mp h).1 ⟨(scan text).last ++ pubkeyToHex pubkey, ?_, ?_⟩
  · rw [formatPubkeyLine, hscan]
    exact mem_lines.mpr (.inl (by simp))
  · exact lineKind_append_pubkeyToHex hblank hcomment pubkey

end Skipped

/-! ### One call -/

namespace State

variable {s : State} {pubkey : PubkeyHex}

theorem insert_of_mem (h : pubkey ∈ s.keys) (fault : Option (Fault AppendOp)) : s.insert pubkey fault = (s, .ok ()) :=
  if_pos h

theorem remove_of_notMem (h : pubkey ∉ s.keys) (iteration : Iteration) (fault : Option (Fault RewriteOp)) :
    s.remove pubkey iteration fault = (s, .ok ()) :=
  if_pos h

theorem insert_none (h : pubkey ∉ s.keys) :
    s.insert pubkey none = (⟨some (s.text ++ formatPubkeyLine pubkey), Insert.insert pubkey s.keys⟩, .ok ()) :=
  if_neg h

theorem insert_none_ok (s : State) (pubkey : PubkeyHex) : (s.insert pubkey none).2 = .ok () := by
  by_cases h : pubkey ∈ s.keys
  · rw [insert_of_mem h]
  · rw [insert_none h]

theorem remove_none_ok (s : State) (pubkey : PubkeyHex) (iteration : Iteration) :
    (s.remove pubkey iteration none).2 = .ok () := by
  have hrewrite : (rewriteFile s.file (s.keys.erase pubkey) iteration none).2 = .ok () := by
    unfold rewriteFile
    split <;> rfl
  unfold remove
  split
  · rfl
  · rcases hresult : rewriteFile s.file (s.keys.erase pubkey) iteration none with ⟨file, e | _⟩
    · rw [hresult] at hrewrite
      cases hrewrite
    · simp only [hresult]

theorem last_insert_none (h : pubkey ∉ s.keys) : (scan (s.insert pubkey none).1.text).last = [] := by
  rw [insert_none h]
  show (scan (s.text ++ formatPubkeyLine pubkey)).last = []
  rw [formatPubkeyLine, scan_append_line _ (newline_notMem (solid_pubkeyToHex pubkey))]

theorem insert_of_notMem (h : pubkey ∉ s.keys) (fault : Option (Fault AppendOp)) :
    ∃ chunk, chunk <+: formatPubkeyLine pubkey ∧ (s.insert pubkey fault).1.text = s.text ++ chunk ∧
      (fault = none ∧ chunk = formatPubkeyLine pubkey ∧ (s.insert pubkey fault).1.keys = Insert.insert pubkey s.keys ∨
        (s.insert pubkey fault).2 ≠ .ok () ∧ (s.insert pubkey fault).1.keys = s.keys) := by
  obtain ⟨chunk, hprefix, htext, hok⟩ := appendPubkey_adds s.file pubkey fault
  unfold insert
  rw [if_neg h]
  rcases hresult : appendPubkey s.file pubkey fault with ⟨file, e | _⟩
  · rw [hresult] at htext
    refine ⟨chunk, hprefix, htext, .inr ⟨nofun, ?_⟩⟩
    exact Finset.erase_insert h
  · rw [hresult] at htext hok
    obtain ⟨hfault, hchunk⟩ := hok rfl
    exact ⟨chunk, hprefix, htext, .inl ⟨hfault, hchunk, rfl⟩⟩

theorem remove_of_mem (h : pubkey ∈ s.keys) (iteration : Iteration) (fault : Option (Fault RewriteOp)) :
    load (s.remove pubkey iteration fault).1.file = .ok (s.remove pubkey iteration fault).1.keys ∨
      (s.remove pubkey iteration fault).2 ≠ .ok () ∧ (s.remove pubkey iteration fault).1.keys = s.keys ∧
        (¬ FailsAfterRename (s.keys.erase pubkey) fault → (s.remove pubkey iteration fault).1.file = s.file) := by
  unfold remove
  rw [if_neg (not_not.mpr h)]
  rcases hresult : rewriteFile s.file (s.keys.erase pubkey) iteration fault with ⟨file, e | _⟩
  · simp only [hresult]
    refine .inr ⟨nofun, Finset.insert_erase h, fun hbefore => ?_⟩
    have hfile := rewriteFile_unchanged (congrArg Prod.snd hresult) hbefore
    rwa [hresult] at hfile
  · have hload := load_rewriteFile (congrArg Prod.snd hresult)
    simp only [hresult] at hload ⊢
    exact .inl hload

end State

open State

theorem Covered.call {s : State} {call : Call} (hcareful : Careful s call) (h : Covered s.text s.keys) :
    Covered (s.call call).1.text (s.call call).1.keys := by
  cases call with
  | insert pubkey fault =>
    by_cases hmem : pubkey ∈ s.keys
    · rw [State.call, State.insert_of_mem hmem]
      exact h
    · obtain ⟨chunk, hprefix, htext, ⟨hfault, rfl, hkeys⟩ | ⟨-, hkeys⟩⟩ := State.insert_of_notMem hmem fault
      · rw [State.call, htext, hkeys]
        exact h.record (hcareful hmem hfault)
      · rw [State.call, htext, hkeys]
        exact h.append hprefix
  | remove pubkey iteration fault =>
    by_cases hmem : pubkey ∈ s.keys
    · rcases State.remove_of_mem hmem iteration fault with hload | ⟨-, hkeys, hfile⟩
      · rw [load_eq] at hload
        exact covered_of_load hload
      · rw [State.call, State.text, hkeys, hfile (hcareful hmem)]
        exact h
    · rw [State.call, State.remove_of_notMem hmem]
      exact h

theorem load_call {s : State} {call : Call} (hclean : Clean s call) (h : load s.file = .ok s.keys) :
    load (s.call call).1.file = .ok (s.call call).1.keys := by
  obtain ⟨hok, hline⟩ := hclean
  cases call with
  | insert pubkey fault =>
    by_cases hmem : pubkey ∈ s.keys
    · rw [call, insert_of_mem hmem]
      exact h
    · obtain ⟨chunk, -, htext, ⟨-, rfl, hkeys⟩ | ⟨hfailed, -⟩⟩ := insert_of_notMem hmem fault
      · rw [load_eq] at h ⊢
        show loadKeysFromFile (s.insert pubkey fault).1.text = .ok (s.insert pubkey fault).1.keys
        rw [htext, hkeys]
        exact loadKeysFromFile_record h (hline hmem) pubkey
      · exact absurd hok hfailed
  | remove pubkey iteration fault =>
    by_cases hmem : pubkey ∈ s.keys
    · rcases remove_of_mem hmem iteration fault with hload | ⟨hfailed, -, -⟩
      · exact hload
      · exact absurd hok hfailed
    · rw [call, remove_of_notMem hmem]
      exact h

/-! ### Every run -/

/-- Start from any file that loads. If no insert appends to an unended comment and no remove fails after its rename,
each key in memory is in what a later load returns, whatever else fails. If nothing fails and each insert starts a
line, a later load returns exactly the keys in memory. -/
theorem memory_within_file {file : Option (List Char)} {keys : Finset PubkeyHex} (hload : load file = .ok keys)
    (calls : List Call) :
    (Along Careful ⟨file, keys⟩ calls → ∀ loaded, load (State.run ⟨file, keys⟩ calls).file = .ok loaded →
      ∀ pubkey, (State.run ⟨file, keys⟩ calls).contains pubkey = true → pubkey ∈ loaded) ∧
    (Along Clean ⟨file, keys⟩ calls →
      load (State.run ⟨file, keys⟩ calls).file = .ok (State.run ⟨file, keys⟩ calls).keys) := by
  constructor
  · intro hcareful loaded hloaded pubkey hpubkey
    have hstart : Covered (text ⟨file, keys⟩) keys := by
      rw [load_eq] at hload
      exact covered_of_load hload
    have hend := hcareful.keeps (fun s call hcall (h : Covered s.text s.keys) => h.call hcall) hstart
    rw [load_eq] at hloaded
    exact hend.subset hloaded (of_decide_eq_true hpubkey)
  · intro hclean
    exact hclean.keeps (fun s call hcall (h : load s.file = .ok s.keys) => load_call hcall h) hload

def firstKey : PubkeyHex := ⟨List.replicate 48 24, rfl⟩

def secondKey : PubkeyHex := ⟨List.replicate 48 25, rfl⟩

noncomputable def listed : Iteration := ⟨Finset.toList, fun _ _ => Finset.mem_toList⟩

/-- Two keys are deleted under an ended comment and one is imported again. -/
noncomputable def deletions : List Call :=
  [.insert firstKey none, .insert secondKey none, .remove firstKey listed none]

theorem memory_within_file_deletions :
    (Along Careful ⟨some "# note\n".toList, ∅⟩ deletions ∧ Along Clean ⟨some "# note\n".toList, ∅⟩ deletions) ∧
      load (State.run ⟨some "# note\n".toList, ∅⟩ deletions).file = .ok {secondKey} ∧
      ∀ loaded, load (State.run ⟨some "# note\n".toList, ∅⟩ deletions).file = .ok loaded → secondKey ∈ loaded := by
  have hload : load (some "# note\n".toList) = .ok ∅ := by decide +kernel
  have hfirst : firstKey ∉ (mk (some "# note\n".toList) ∅).keys := by simp
  have hlast := last_insert_none hfirst
  have hcareful : Along Careful ⟨some "# note\n".toList, ∅⟩ deletions := by
    refine ⟨fun _ _ => ?_, fun _ _ => ?_, fun _ => ?_, trivial⟩
    · decide +kernel
    · show ¬ Comment (scan (insert _ firstKey none).1.text).last
      rw [hlast]
      decide
    · decide +kernel
  have hclean : Along Clean ⟨some "# note\n".toList, ∅⟩ deletions := by
    refine ⟨⟨insert_none_ok _ _, fun _ => ?_⟩, ⟨insert_none_ok _ _, fun _ => ?_⟩,
      ⟨remove_none_ok _ _ _, trivial⟩, trivial⟩
    · decide +kernel
    · show Blank (scan (insert _ firstKey none).1.text).last
      rw [hlast]
      decide
  have hkeys : (run ⟨some "# note\n".toList, ∅⟩ deletions).keys = {secondKey} := by decide +kernel
  refine ⟨⟨hcareful, hclean⟩, ?_, fun loaded hloaded => ?_⟩
  · rw [(memory_within_file hload deletions).2 hclean, hkeys]
  · exact (memory_within_file hload deletions).1 hcareful loaded hloaded secondKey (by decide +kernel)

theorem scan_pubkeyToHex (pubkey : PubkeyHex) : scan (pubkeyToHex pubkey) = ⟨[], pubkeyToHex pubkey⟩ :=
  scan_append_chunk [] (newline_notMem (solid_pubkeyToHex pubkey))

theorem load_pubkeyToHex (pubkey : PubkeyHex) : load (some (pubkeyToHex pubkey)) = .ok {pubkey} := by
  refine loadKeysFromFile_eq_ok_iff.mpr ?_
  simp [Holds, scan_pubkeyToHex, lines, lineKind_pubkeyToHex, eq_comm]

/-- A key deleted after an unended comment is in memory and not in the file; one deleted after an unended key fails
the next load; and a remove that fails last has a key in memory that is not in the file any more. -/
theorem key_lost_from_file : (load (some "# note".toList) = .ok ∅ ∧
      (State.insert ⟨some "# note".toList, ∅⟩ firstKey none).2 = .ok () ∧
      (State.insert ⟨some "# note".toList, ∅⟩ firstKey none).1.contains firstKey = true ∧
      load (State.insert ⟨some "# note".toList, ∅⟩ firstKey none).1.file = .ok ∅) ∧
    (load (some (pubkeyToHex firstKey)) = .ok {firstKey} ∧
      (State.insert ⟨some (pubkeyToHex firstKey), {firstKey}⟩ secondKey none).2 = .ok () ∧
      ∀ loaded, load (State.insert ⟨some (pubkeyToHex firstKey), {firstKey}⟩ secondKey none).1.file ≠ .ok loaded) ∧
    load (some ([firstKey, secondKey].flatMap formatPubkeyLine)) = .ok {firstKey, secondKey} ∧
      (State.remove ⟨some ([firstKey, secondKey].flatMap formatPubkeyLine), {firstKey, secondKey}⟩ firstKey listed
        (some ⟨.setPermissions, "Operation not permitted"⟩)).1.contains firstKey = true ∧
      load (State.remove ⟨some ([firstKey, secondKey].flatMap formatPubkeyLine), {firstKey, secondKey}⟩ firstKey listed
        (some ⟨.setPermissions, "Operation not permitted"⟩)).1.file = .ok {secondKey} := by
  refine ⟨⟨?_, ?_, ?_, ?_⟩, ⟨load_pubkeyToHex firstKey, ?_, fun loaded => ?_⟩, ?_, ?_, ?_⟩
  · decide +kernel
  · decide +kernel
  · decide +kernel
  · decide +kernel
  · decide +kernel
  · have hkind : lineKind (scan (pubkeyToHex firstKey)).last = .key firstKey := by
      rw [scan_pubkeyToHex, lineKind_pubkeyToHex]
    have hskips := (lineKind_eq_key_iff.mp hkind).1
    exact loadKeysFromFile_spoiled (not_blank_of_skips hskips) (skips_eq_false_iff.mp hskips).2 secondKey
  · exact loadKeysFromFile_written (by simp)
  · decide +kernel
  · have hrest : ({firstKey, secondKey} : Finset PubkeyHex).erase firstKey = {secondKey} := by decide +kernel
    have hwritten := loadKeysFromFile_written (listed.mem_order {secondKey})
    rw [← hrest] at hwritten ⊢
    exact hwritten

end Rvc.DeletionDenylist
