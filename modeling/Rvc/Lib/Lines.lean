import Mathlib.Data.List.DropRight

/-!
# Texts read by lines

A text is read character by character into the lines that a newline has ended and the last one, which none has.
What an append does to the lines is then a step of the reader (`scan_append`): without a newline it only makes the
last line longer, and with a newline at its end it makes the last line an ended one.
-/

namespace Rvc.Lib

open List

/-! ### Lines -/

structure Scan where
  ended : List (List Char)
  last : List Char
  deriving DecidableEq

def Scan.feed (s : Scan) (c : Char) : Scan :=
  if c = '\n' then ⟨s.ended ++ [s.last], []⟩ else ⟨s.ended, s.last ++ [c]⟩

def scan (text : List Char) : Scan := text.foldl Scan.feed ⟨[], []⟩

def Scan.lines (s : Scan) : List (List Char) := s.ended ++ [s.last]

variable {line : List Char}

theorem Scan.mem_lines {s : Scan} : line ∈ s.lines ↔ line ∈ s.ended ∨ line = s.last := by
  simp [Scan.lines]

def stripCr (line : List Char) : List Char := if line.getLast? = some '\r' then line.dropLast else line

/-- `BufRead::lines`: a carriage return goes with the newline, and an empty last line is none. -/
def bufLines (text : List Char) : List (List Char) :=
  (scan text).ended.map stripCr ++ if (scan text).last = [] then [] else [(scan text).last]

theorem scan_append (text chunk : List Char) : scan (text ++ chunk) = chunk.foldl Scan.feed (scan text) :=
  foldl_append

theorem foldl_feed {chunk : List Char} (h : '\n' ∉ chunk) (s : Scan) :
    chunk.foldl Scan.feed s = ⟨s.ended, s.last ++ chunk⟩ := by
  induction chunk generalizing s with
  | nil => simp
  | cons c chunk ih =>
    obtain ⟨hc, hrest⟩ := not_or.mp (mem_cons.not.mp h)
    rw [foldl_cons, ih hrest, Scan.feed, if_neg (Ne.symm hc)]
    simp

theorem scan_append_chunk (text : List Char) {chunk : List Char} (h : '\n' ∉ chunk) :
    scan (text ++ chunk) = ⟨(scan text).ended, (scan text).last ++ chunk⟩ := by
  rw [scan_append, foldl_feed h]

theorem scan_append_line (text : List Char) (h : '\n' ∉ line) :
    scan (text ++ (line ++ ['\n'])) = ⟨(scan text).ended ++ [(scan text).last ++ line], []⟩ := by
  rw [scan_append, foldl_append, foldl_feed h]
  rfl

theorem scan_flatMap {lines : List (List Char)} (h : ∀ line ∈ lines, '\n' ∉ line) :
    scan (lines.flatMap (· ++ ['\n'])) = ⟨lines, []⟩ := by
  induction lines using List.reverseRecOn with
  | nil => rfl
  | append_singleton lines line ih =>
    have hlines := ih fun line hline => h line (mem_append_left _ hline)
    rw [flatMap_append, flatMap_singleton, scan_append_line _ (h line (by simp)), hlines]
    simp

/-! ### Trimming -/

/-- `char::is_whitespace`: the Unicode property `White_Space`. -/
def isWhitespace (c : Char) : Bool :=
  ('\t' ≤ c && c ≤ '\r') || c = ' ' || c.toNat = 0x85 || c.toNat = 0xA0 || c.toNat = 0x1680 ||
    (0x2000 ≤ c.toNat && c.toNat ≤ 0x200A) || c.toNat = 0x2028 || c.toNat = 0x2029 || c.toNat = 0x202F ||
    c.toNat = 0x205F || c.toNat = 0x3000

def trim (line : List Char) : List Char := (line.dropWhile isWhitespace).rdropWhile isWhitespace

def Blank (line : List Char) : Prop := ∀ c ∈ line, isWhitespace c = true

instance (line : List Char) : Decidable (Blank line) := decidable_of_iff (line.all isWhitespace = true) List.all_eq_true

theorem dropWhile_eq_nil_of_blank (h : Blank line) : line.dropWhile isWhitespace = [] :=
  dropWhile_eq_nil_iff.mpr h

theorem head_dropWhile (h : line.dropWhile isWhitespace ≠ []) :
    isWhitespace ((line.dropWhile isWhitespace).head h) = false := by
  simpa using head_dropWhile_not isWhitespace h

theorem trim_eq_nil_iff : trim line = [] ↔ Blank line := by
  constructor
  · intro h
    rw [trim, rdropWhile_eq_nil_iff] at h
    by_contra hblank
    have hne : line.dropWhile isWhitespace ≠ [] := fun hnil => hblank (dropWhile_eq_nil_iff.mp hnil)
    have hhead := h _ (head_mem hne)
    rw [head_dropWhile hne] at hhead
    cases hhead
  · intro h
    rw [trim, dropWhile_eq_nil_of_blank h, rdropWhile_nil]

theorem trim_concat {c : Char} (h : isWhitespace c = true) : trim (line ++ [c]) = trim line := by
  unfold trim
  rw [dropWhile_append]
  split
  next hempty =>
    rw [isEmpty_iff.mp hempty]
    simp [h]
  next => exact rdropWhile_concat_pos _ _ _ h

theorem trim_stripCr (line : List Char) : trim (stripCr line) = trim line := by
  unfold stripCr
  split
  next h =>
    have hline : line = line.dropLast ++ ['\r'] := (dropLast_append_getLast? '\r' h).symm
    rw [hline, dropLast_concat, trim_concat (by decide)]
  next => rfl

theorem head_trim (h : trim line ≠ []) : isWhitespace ((trim line).head h) = false := by
  have hpart : trim line <+: line.dropWhile isWhitespace := rdropWhile_prefix _ _
  have hne : line.dropWhile isWhitespace ≠ [] := fun hnil => h (by rw [trim, hnil, rdropWhile_nil])
  rw [hpart.head h]
  exact head_dropWhile hne

theorem trim_trim (line : List Char) : trim (trim line) = trim line := by
  by_cases h : trim line = []
  · rw [h]
    rfl
  · have hdrop : (trim line).dropWhile isWhitespace = trim line := by
      obtain ⟨c, rest, hcons⟩ := exists_cons_of_ne_nil h
      have hhead := head_trim h
      simp only [hcons, head_cons] at hhead ⊢
      simp [hhead]
    nth_rewrite 1 [trim]
    rw [hdrop, trim, rdropWhile_idempotent]

section

variable {ext : List Char}

theorem rdropWhile_append (hext : ext ≠ []) (hsolid : ∀ c ∈ ext, isWhitespace c = false) (start : List Char) :
    (start ++ ext).rdropWhile isWhitespace = start ++ ext := by
  rw [rdropWhile_eq_self_iff]
  intro hne
  rw [getLast_append_of_ne_nil hne hext, hsolid _ (getLast_mem hext)]
  exact Bool.false_ne_true

theorem trim_append_of_blank (hblank : Blank line) (hext : ext ≠ []) (hsolid : ∀ c ∈ ext, isWhitespace c = false) :
    trim (line ++ ext) = ext := by
  have hdrop : (line ++ ext).dropWhile isWhitespace = ext := by
    rw [dropWhile_append, dropWhile_eq_nil_of_blank hblank, isEmpty_nil, if_pos rfl]
    obtain ⟨c, rest, rfl⟩ := exists_cons_of_ne_nil hext
    simp [hsolid c mem_cons_self]
  rw [trim, hdrop]
  exact rdropWhile_append hext hsolid []

theorem trim_append (hblank : ¬ Blank line) (hext : ext ≠ []) (hsolid : ∀ c ∈ ext, isWhitespace c = false) :
    ∃ between, trim (line ++ ext) = trim line ++ between ++ ext := by
  have hne : line.dropWhile isWhitespace ≠ [] := fun hnil => hblank (dropWhile_eq_nil_iff.mp hnil)
  have hdrop : (line ++ ext).dropWhile isWhitespace = line.dropWhile isWhitespace ++ ext := by
    rw [dropWhile_append, if_neg (by simpa using hne)]
  refine ⟨(line.dropWhile isWhitespace).rtakeWhile isWhitespace, ?_⟩
  rw [trim, hdrop, rdropWhile_append hext hsolid, trim, rdropWhile_append_rtakeWhile]

end

end Rvc.Lib
