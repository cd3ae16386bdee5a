import Mathlib.Init

/-!
# UTF-8, one byte at a time

A text is well formed when every byte keeps the decoder out of `refused` and the last one leaves it
between two characters. A text that ends inside a character is not well formed, but a later byte
may still complete it; once a byte is refused, nothing that follows repairs the text.

`lossy` replaces what is not well formed and leaves a well formed text as it is (`lossy_of_valid`).
-/

namespace Rvc.Lib.Utf8

open List

inductive State where
  | start
  | tail1
  | tail2
  | tail3
  /-- The shortest three byte form would be overlong: the next byte is at least `0xA0`. -/
  | afterE0
  /-- Surrogates are excluded: the next byte is at most `0x9F`. -/
  | afterED
  | afterF0
  | afterF4
  | refused
  deriving DecidableEq

def lead (byte : UInt8) : State :=
  if byte ≤ 0x7F then .start
  else if byte < 0xC2 then .refused
  else if byte ≤ 0xDF then .tail1
  else if byte = 0xE0 then .afterE0
  else if byte = 0xED then .afterED
  else if byte ≤ 0xEF then .tail2
  else if byte = 0xF0 then .afterF0
  else if byte ≤ 0xF3 then .tail3
  else if byte = 0xF4 then .afterF4
  else .refused

def within (low high byte : UInt8) (next : State) : State :=
  if low ≤ byte ∧ byte ≤ high then next else .refused

def step : State → UInt8 → State
  | .start, byte => lead byte
  | .tail1, byte => within 0x80 0xBF byte .start
  | .tail2, byte => within 0x80 0xBF byte .tail1
  | .tail3, byte => within 0x80 0xBF byte .tail2
  | .afterE0, byte => within 0xA0 0xBF byte .tail1
  | .afterED, byte => within 0x80 0x9F byte .tail1
  | .afterF0, byte => within 0x90 0xBF byte .tail2
  | .afterF4, byte => within 0x80 0x8F byte .tail2
  | .refused, _ => .refused

def run (state : State) (bytes : List UInt8) : State := bytes.foldl step state

def Valid (bytes : List UInt8) : Prop := run .start bytes = .start

/-- The bytes are well formed, except that the last character may be cut short. -/
def Completable (bytes : List UInt8) : Prop := run .start bytes ≠ .refused

instance (bytes : List UInt8) : Decidable (Valid bytes) := inferInstanceAs (Decidable (_ = _))

instance (bytes : List UInt8) : Decidable (Completable bytes) := inferInstanceAs (Decidable (_ ≠ _))

theorem run_append (state : State) (a b : List UInt8) : run state (a ++ b) = run (run state a) b :=
  foldl_append

theorem run_refused (bytes : List UInt8) : run .refused bytes = .refused := by
  induction bytes with
  | nil => rfl
  | cons byte rest ih => exact ih

theorem completable_nil : Completable [] := by decide

theorem Valid.completable {bytes : List UInt8} (h : Valid bytes) : Completable bytes := by
  intro hrefused
  cases h.symm.trans hrefused

theorem Completable.of_append {a b : List UInt8} (h : Completable (a ++ b)) : Completable a := by
  intro hrefused
  apply h
  rw [run_append, hrefused, run_refused]

theorem Valid.append {a b : List UInt8} (ha : Valid a) (hb : Valid b) : Valid (a ++ b) := by
  rw [Valid, run_append, ha]
  exact hb

/-! ### Replacing what is not well formed -/

def replacement : List UInt8 := [0xEF, 0xBF, 0xBD]

/-- Reads on from `state`, with `held` the bytes of the unfinished character. A byte that cannot
continue the character ends it there, with a replacement, and is read again as a first byte. -/
def lossyFrom (state : State) (held : List UInt8) : List UInt8 → List UInt8
  | [] => if state = .start then held else replacement
  | byte :: rest =>
    match step state byte, lead byte with
    | .start, _ => held ++ [byte] ++ lossyFrom .start [] rest
    | .refused, .start =>
      replacement ++ [byte] ++ lossyFrom .start [] rest
    | .refused, .refused =>
      if state = .start then replacement ++ lossyFrom .start [] rest
      else replacement ++ replacement ++ lossyFrom .start [] rest
    | .refused, next => replacement ++ lossyFrom next [byte] rest
    | next, _ => lossyFrom next (held ++ [byte]) rest

/-- The bytes, with a replacement for every maximal run that is not part of a well formed text. -/
def lossy (bytes : List UInt8) : List UInt8 := lossyFrom .start [] bytes

theorem valid_replacement : Valid replacement := by decide

theorem valid_lossyFrom {state : State} {held : List UInt8} (hheld : run .start held = state)
    (hstate : state ≠ .refused) (rest : List UInt8) : Valid (lossyFrom state held rest) := by
  induction rest generalizing state held with
  | nil =>
    unfold lossyFrom
    split
    · next hstart => rwa [hstart] at hheld
    · exact valid_replacement
  | cons byte rest ih =>
    have hnext : run .start (held ++ [byte]) = step state byte := by
      rw [run_append, hheld]
      rfl
    have hsingle : run .start [byte] = lead byte := rfl
    have hrest : Valid (lossyFrom .start [] rest) := ih rfl (by decide)
    unfold lossyFrom
    split
    · next hstep => exact Valid.append (hnext.trans hstep) hrest
    · next hlead => exact (valid_replacement.append (hsingle.trans hlead)).append hrest
    · split
      · exact valid_replacement.append hrest
      · exact (valid_replacement.append valid_replacement).append hrest
    · next hlead => exact valid_replacement.append (ih hsingle hlead)
    · next hrefused _ _ => exact ih hnext hrefused

theorem valid_lossy (bytes : List UInt8) : Valid (lossy bytes) :=
  @valid_lossyFrom .start [] rfl (by decide) bytes

theorem lossyFrom_of_run {state : State} {rest : List UInt8} (h : run state rest = .start)
    (held : List UInt8) : lossyFrom state held rest = held ++ rest := by
  induction rest generalizing state held with
  | nil =>
    have hstart : state = .start := h
    rw [lossyFrom, if_pos hstart, append_nil]
  | cons byte rest ih =>
    have hrest : run (step state byte) rest = .start := h
    have hstep : step state byte ≠ .refused := by
      intro hrefused
      rw [hrefused, run_refused] at hrest
      cases hrest
    unfold lossyFrom
    split
    · next hstart =>
      rw [hstart] at hrest
      rw [ih hrest, append_assoc]
      simp
    · next hrefused _ => exact absurd hrefused hstep
    · next hrefused _ => exact absurd hrefused hstep
    · next hrefused _ _ => exact absurd hrefused hstep
    · rw [ih hrest, append_assoc, singleton_append]

theorem lossy_of_valid {bytes : List UInt8} (h : Valid bytes) : lossy bytes = bytes :=
  lossyFrom_of_run h []

end Rvc.Lib.Utf8
