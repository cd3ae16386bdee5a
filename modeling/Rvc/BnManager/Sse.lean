import Mathlib.Data.List.Basic
import Rvc.Lib.Utf8

/-!
# The bounded framer of server sent events

The framer reads a response body in chunks and hands each message to a callback. Across two calls it
keeps a partial byte order mark, a line whose end is not known yet, a `\r` that may be the first
half of a `\r\n`, and the fields of the message under way; every one of those buffers is capped.

A chunk is pushed one byte at a time without any difference (`push_cons`), so what a stream delivers
is a property of its bytes. The texts here are bytes: the field names and the delimiters are ASCII,
so comparing and splitting bytes is comparing and splitting strings.
-/

namespace Rvc.BnManager.Sse

open Rvc.Lib List Nat Except

def ascii (text : String) : List UInt8 := text.toList.map fun c => c.toNat.toUInt8

def lf : UInt8 := 0x0A

def cr : UInt8 := 0x0D

structure SseMessage where
  event : List UInt8
  data : List UInt8
  deriving DecidableEq

inductive FrameError where
  | oversize (cap : Nat) (field : String)
  | invalidUtf8
  deriving DecidableEq

structure SseFramer where
  maxEventBytes : Nat
  /-- An incomplete line, or one or two bytes of a byte order mark at the start of the stream. -/
  pending : List UInt8
  atStart : Bool
  /-- The last byte was a `\r`, and the byte after it is not known. -/
  heldCr : Bool
  event : List UInt8
  data : List UInt8
  id : List UInt8
  sawData : Bool
  deriving DecidableEq

structure Pushed where
  messages : List SseMessage
  result : Except FrameError Bool
  framer : SseFramer

def findEol (bytes : List UInt8) : Option Nat :=
  bytes.findIdx? fun byte => byte = lf || byte = cr

def utf8OkOrIncomplete (bytes : List UInt8) : Except FrameError Unit :=
  if Utf8.Completable bytes then .ok () else .error .invalidUtf8

/-- The name before the first colon and the value after it, without one leading space. -/
def splitField (line : List UInt8) : List UInt8 × List UInt8 :=
  match line.findIdx? (· = 0x3A) with
  | some colon =>
    let rest := line.drop (colon + 1)
    (line.take colon, if rest.head? = some 0x20 then rest.tail else rest)
  | none => (line, [])

variable {f : SseFramer} {byte : UInt8} {input rest bytes line : List UInt8}

namespace SseFramer

def new (maxEventBytes : Nat) : SseFramer :=
  { maxEventBytes, pending := [], atStart := true, heldCr := false, event := [], data := [], id := [],
    sawData := false }

section

variable (f : SseFramer)

def oversize (field : String) : FrameError := .oversize f.maxEventBytes field

/-- The blank line: a message when the fields hold data, and the fields for the next one. -/
def dispatch : Option SseMessage × SseFramer :=
  if f.sawData then
    (some { event := if f.event = [] then ascii "message" else f.event, data := f.data },
      { f with sawData := false, data := [], event := [] })
  else (none, { f with event := [] })

def applyField (name value : List UInt8) : Except FrameError SseFramer :=
  if name = ascii "data" then
    let sep := if f.sawData then [lf] else []
    if f.maxEventBytes < f.data.length + sep.length + value.length then .error (f.oversize "data")
    else .ok { f with data := f.data ++ sep ++ value, sawData := true }
  else if name = ascii "event" then
    if f.maxEventBytes < value.length then .error (f.oversize "event")
    else .ok { f with event := value }
  else if name = ascii "id" then
    -- an id with a NUL is ignored, and the previous one stays
    if 0 ∈ value then .ok f
    else if f.maxEventBytes < value.length then .error (f.oversize "id")
    else .ok { f with id := value }
  else .ok f

def applyLine (onMessage : SseMessage → Bool) (line : List UInt8) : Pushed :=
  if line = [] then
    match f.dispatch with
    | (some message, f) => ⟨[message], .ok (onMessage message), f⟩
    | (none, f) => ⟨[], .ok true, f⟩
  else if line.head? = some 0x3A then ⟨[], .ok true, f⟩
  else
    match f.applyField (splitField line).1 (splitField line).2 with
    | .error e => ⟨[], .error e, f⟩
    | .ok f => ⟨[], .ok true, f⟩

/-- A line whose bytes have been taken: `String::from_utf8`, then the field it sets. -/
def readLine (onMessage : SseMessage → Bool) (line : List UInt8) : Pushed :=
  if Utf8.Valid line then f.applyLine onMessage line else ⟨[], .error .invalidUtf8, f⟩

/-- What taking a line leaves: the line with the input after it, or `none` when more bytes are
required, and the framer. -/
structure Took where
  result : Except FrameError (Option (List UInt8 × List UInt8))
  framer : SseFramer

def checkPendingUtf8 : Except FrameError Unit := utf8OkOrIncomplete f.pending

def room : Nat := f.maxEventBytes - f.pending.length

def extend (bytes : List UInt8) : SseFramer :=
  { f with pending := f.pending ++ bytes }

/-- A line longer than the cap: the bytes up to the cap are kept and checked, the rest is not
copied. -/
def overflow (input : List UInt8) : Took :=
  let full := f.extend (input.take f.room)
  match full.checkPendingUtf8 with
  | .error e => ⟨.error e, full⟩
  | .ok () => ⟨.error (full.oversize "line"), full⟩

def takeLine (input : List UInt8) : Took :=
  if f.heldCr then
    match input with
    | [] => ⟨.ok none, f⟩
    | byte :: rest =>
      ⟨.ok (some (f.pending, if byte = lf then rest else byte :: rest)),
        { f with heldCr := false, pending := [] }⟩
  else
    match findEol input with
    | some rel =>
      if f.maxEventBytes < f.pending.length + rel then f.overflow input
      else
        let line := f.pending ++ input.take rel
        if input[rel]? = some lf then
          ⟨.ok (some (line, input.drop (rel + 1))), { f with pending := [] }⟩
        else if rel + 1 < input.length then
          -- a `\r` may still be followed by `\n`
          let extra := if input[rel + 1]? = some lf then 1 else 0
          ⟨.ok (some (line, input.drop (rel + 1 + extra))), { f with pending := [] }⟩
        else
          match utf8OkOrIncomplete line with
          | .error e => ⟨.error e, { f with pending := [] }⟩
          | .ok () => ⟨.ok none, { f with pending := line, heldCr := true }⟩
    | none =>
      if f.room < input.length then f.overflow input
      else
        let grown := f.extend input
        match grown.checkPendingUtf8 with
        | .error e => ⟨.error e, grown⟩
        | .ok () => ⟨.ok none, grown⟩

def bom : List UInt8 := [0xEF, 0xBB, 0xBF]

/-- The bytes of the input that the byte order mark may still need. -/
def fromInput (input : List UInt8) : List UInt8 :=
  input.take (bom.length - (f.pending.take bom.length).length)

/-- Decides the byte order mark as far as the bytes go; returns the input that is left. -/
def consumeBom (input : List UInt8) : List UInt8 × SseFramer :=
  let fromInput := f.fromInput input
  let seen := f.pending.take bom.length ++ fromInput
  if seen = [] then (input, f)
  else if seen = bom.take seen.length then
    if seen.length < bom.length then
      (input.drop fromInput.length, { f with pending := seen })
    else (input.drop fromInput.length, { f with pending := [], atStart := false })
  else (input, { f with atStart := false })

end

/-- What a line does to the framer: it sets fields of the message, each within the cap, and leaves
the buffers of the stream as they are. -/
structure SetsFields (f g : SseFramer) : Prop where
  maxEventBytes : g.maxEventBytes = f.maxEventBytes
  pending : g.pending = f.pending
  atStart : g.atStart = f.atStart
  heldCr : g.heldCr = f.heldCr
  event : g.event.length ≤ max f.event.length f.maxEventBytes
  data : g.data.length ≤ max f.data.length f.maxEventBytes
  id : g.id.length ≤ max f.id.length f.maxEventBytes

theorem SetsFields.refl (f : SseFramer) : SetsFields f f where
  maxEventBytes := rfl
  pending := rfl
  atStart := rfl
  heldCr := rfl
  event := Nat.le_max_left _ _
  data := Nat.le_max_left _ _
  id := Nat.le_max_left _ _

open SetsFields

theorem setsFields_dispatch (f : SseFramer) : SetsFields f f.dispatch.2 := by
  unfold dispatch
  split
  · exact { refl f with event := zero_le _, data := zero_le _ }
  · exact { refl f with event := zero_le _ }

theorem setsFields_applyField {g : SseFramer} {name value : List UInt8}
    (h : f.applyField name value = .ok g) : SetsFields f g := by
  have hcap {length old : Nat} (hlong : ¬f.maxEventBytes < length) : length ≤ max old f.maxEventBytes :=
    Nat.le_trans (Nat.not_lt.mp hlong) (Nat.le_max_right _ _)
  simp only [applyField] at h
  generalize (if f.sawData = true then [lf] else []) = sep at h
  split_ifs at h with hdata hlong hevent hlong hid hnul hlong
  all_goals cases h
  · exact { refl f with data := by simpa only [length_append] using hcap hlong }
  · exact { refl f with event := hcap hlong }
  · exact refl f
  · exact { refl f with id := hcap hlong }
  · exact refl f

section

variable (f : SseFramer) (onMessage : SseMessage → Bool) (line : List UInt8)

theorem setsFields_applyLine : SetsFields f (f.applyLine onMessage line).framer := by
  have hdispatch := f.setsFields_dispatch
  unfold applyLine
  split
  · split <;> rename_i hd <;> simpa only [hd] using hdispatch
  · split
    · exact refl f
    · split
      · exact refl f
      · rename_i hfield
        exact setsFields_applyField hfield

theorem setsFields_readLine : SetsFields f (f.readLine onMessage line).framer := by
  unfold readLine
  split
  · exact f.setsFields_applyLine onMessage line
  · exact refl f

end

def measure (f : SseFramer) (input : List UInt8) : Nat :=
  2 * input.length + if f.heldCr then 1 else 0

theorem findEol_lt {rel : Nat} (h : findEol input = some rel) : rel < input.length := by
  obtain ⟨hlt, -⟩ := List.findIdx?_eq_some_iff_getElem.mp h
  exact hlt

theorem overflow_error (f : SseFramer) (input : List UInt8) : ∃ e, (f.overflow input).result = .error e := by
  unfold overflow
  dsimp only
  split
  · exact ⟨_, rfl⟩
  · exact ⟨_, rfl⟩

theorem takeLine_some (h : (f.takeLine input).result = .ok (some (line, rest))) :
    (f.takeLine input).framer = { f with pending := [], heldCr := false } ∧
      2 * rest.length < f.measure input := by
  obtain ⟨e, hoverflow⟩ := f.overflow_error input
  revert h
  fun_cases takeLine f input
  case case2 hheld byte rest =>
    rintro ⟨⟩
    refine ⟨rfl, ?_⟩
    simp only [measure, if_pos hheld]
    split <;> simp only [length_cons] <;> omega
  case case4 hheld rel hcap heol line hlf =>
    intro h
    obtain ⟨-, rfl⟩ := Prod.mk.inj (Option.some.inj (ok.inj h))
    have hlt := findEol_lt heol
    refine ⟨by simp [Bool.not_eq_true _ ▸ hheld], ?_⟩
    simp only [measure, length_drop]
    omega
  case case5 hheld rel hcap heol line hlf hmore extra =>
    intro h
    obtain ⟨-, rfl⟩ := Prod.mk.inj (Option.some.inj (ok.inj h))
    refine ⟨by simp [Bool.not_eq_true _ ▸ hheld], ?_⟩
    simp only [measure, length_drop]
    omega
  all_goals
    intro h
    first | cases hoverflow.symm.trans h | cases h

def feed (f : SseFramer) (onMessage : SseMessage → Bool) (input : List UInt8) : Pushed :=
  match _h : (f.takeLine input).result with
  | .error e => ⟨[], .error e, (f.takeLine input).framer⟩
  | .ok none => ⟨[], .ok true, (f.takeLine input).framer⟩
  | .ok (some (line, input')) =>
    let read := (f.takeLine input).framer.readLine onMessage line
    match read.result with
    | .ok true =>
      let rest := read.framer.feed onMessage input'
      ⟨read.messages ++ rest.messages, rest.result, rest.framer⟩
    | _ => read
termination_by f.measure input
decreasing_by
  obtain ⟨htook, hlt⟩ := takeLine_some _h
  have hread := ((f.takeLine input).framer.setsFields_readLine onMessage line).heldCr
  rw [htook] at hread
  simpa only [measure, hread, htook, Bool.false_eq_true, if_false, Nat.add_zero] using hlt

def push (f : SseFramer) (onMessage : SseMessage → Bool) (chunk : List UInt8) : Pushed :=
  if f.atStart then
    let (chunk, f) := f.consumeBom chunk
    if f.atStart then ⟨[], .ok true, f⟩ else f.feed onMessage chunk
  else f.feed onMessage chunk

def finish (f : SseFramer) (onMessage : SseMessage → Bool) : Pushed :=
  if f.heldCr then
    { f with heldCr := false, pending := [] }.readLine onMessage f.pending
  else ⟨[], .ok true, f⟩

/-- Chunks pushed until the first error, then the end of the stream: what was delivered, and the
error if there is one. -/
def run (f : SseFramer) (onMessage : SseMessage → Bool) : List (List UInt8) → List SseMessage × Option FrameError
  | [] =>
    let done := f.finish onMessage
    match done.result with
    | .error e => (done.messages, some e)
    | .ok _ => (done.messages, none)
  | chunk :: chunks =>
    let pushed := f.push onMessage chunk
    match pushed.result with
    | .error e => (pushed.messages, some e)
    | .ok _ =>
      let rest := pushed.framer.run onMessage chunks
      (pushed.messages ++ rest.1, rest.2)

/-! ## Lines, byte by byte -/

theorem utf8OkOrIncomplete_eq_ok : utf8OkOrIncomplete bytes = .ok () ↔ Utf8.Completable bytes := by
  simp [utf8OkOrIncomplete]

theorem utf8OkOrIncomplete_eq_error {e : FrameError} :
    utf8OkOrIncomplete bytes = .error e ↔ ¬Utf8.Completable bytes ∧ e = .invalidUtf8 := by
  by_cases h : Utf8.Completable bytes <;> simp [utf8OkOrIncomplete, h, eq_comm]

theorem findEol_cons_eol (h : byte = lf ∨ byte = cr) (rest : List UInt8) : findEol (byte :: rest) = some 0 := by
  simp [findEol, List.findIdx?_cons, h]

theorem findEol_cons_other (hlf : byte ≠ lf) (hcr : byte ≠ cr) (rest : List UInt8) :
    findEol (byte :: rest) = (findEol rest).map (· + 1) := by
  simp [findEol, List.findIdx?_cons, hlf, hcr]

@[simp]
theorem extend_nil (f : SseFramer) : f.extend [] = f := by
  simp only [extend, append_nil]

theorem extend_append (f : SseFramer) (a b : List UInt8) : (f.extend a).extend b = f.extend (a ++ b) := by
  simp only [extend, append_assoc]

theorem room_extend_singleton (f : SseFramer) (byte : UInt8) : (f.extend [byte]).room = f.room - 1 := by
  simp only [room, extend, length_append, length_singleton]
  omega

theorem takeLine_cons (hheld : f.heldCr = false)
    (hroom : f.pending.length < f.maxEventBytes) (hlf : byte ≠ lf) (hcr : byte ≠ cr)
    (rest : List UInt8) : f.takeLine (byte :: rest) = (f.extend [byte]).takeLine rest := by
  have hsucc : f.room = (f.extend [byte]).room + 1 := by
    rw [room_extend_singleton]
    unfold room
    omega
  have hoverflow : f.overflow (byte :: rest) = (f.extend [byte]).overflow rest := by
    simp only [overflow, extend_append, hsucc, take_succ_cons, singleton_append]
  have hlength : (f.extend [byte]).pending.length = f.pending.length + 1 := length_append
  have hmax : (f.extend [byte]).maxEventBytes = f.maxEventBytes := rfl
  have hheld' : (f.extend [byte]).heldCr = false := hheld
  unfold takeLine
  rw [hheld, hheld', findEol_cons_other hlf hcr, hoverflow, hlength, hmax]
  cases findEol rest with
  | some rel =>
    have hsum : f.pending.length + (rel + 1) = f.pending.length + 1 + rel := by omega
    have hdrop (extra : Nat) : (byte :: rest).drop (rel + 1 + 1 + extra) = rest.drop (rel + 1 + extra) := by
      rw [Nat.add_right_comm (rel + 1) 1 extra, drop_succ_cons]
    simp [extend, hsum, hdrop]
  | none => simp [extend_append, hsucc]

/-- Once a byte of the line has been refused, taking the line fails or gives a text that is refused
as a whole. -/
theorem takeLine_refused (hheld : f.heldCr = false) (hrefused : ¬Utf8.Completable f.pending) (input : List UInt8) :
    (f.takeLine input).result = .error .invalidUtf8 ∨
      ∃ line rest, (f.takeLine input).result = .ok (some (line, rest)) ∧ ¬Utf8.Valid line := by
  have happend (bytes : List UInt8) : ¬Utf8.Completable (f.pending ++ bytes) :=
    fun h => hrefused h.of_append
  have hoverflow : (f.overflow input).result = .error .invalidUtf8 := by
    simp [overflow, checkPendingUtf8, utf8OkOrIncomplete, extend, happend]
  fun_cases takeLine f input
  case case1 h | case2 h _ _ => exact absurd h (by simp [hheld])
  case case3 | case8 => exact .inl hoverflow
  case case4 | case5 => exact .inr ⟨_, _, rfl, fun h => happend _ h.completable⟩
  case case6 h | case9 h =>
    obtain ⟨-, rfl⟩ := utf8OkOrIncomplete_eq_error.mp h
    exact .inl rfl
  case case7 h | case10 h => exact absurd (utf8OkOrIncomplete_eq_ok.mp h) (happend _)

end SseFramer

/-! ## What a caller that never stops sees of a call -/

/-- The messages of a call, and the error or the framer for the next call: after an error the framer
is dropped. -/
structure Outcome where
  messages : List SseMessage
  ending : Except FrameError SseFramer

namespace Outcome

def andThen (o : Outcome) (next : SseFramer → Outcome) : Outcome :=
  match o.ending with
  | .error e => ⟨o.messages, .error e⟩
  | .ok f => ⟨o.messages ++ (next f).messages, (next f).ending⟩

@[simp]
theorem andThen_error (messages : List SseMessage) (e : FrameError) (next : SseFramer → Outcome) :
    andThen ⟨messages, .error e⟩ next = ⟨messages, .error e⟩ :=
  rfl

@[simp]
theorem andThen_quiet (f : SseFramer) (next : SseFramer → Outcome) : andThen ⟨[], .ok f⟩ next = next f :=
  rfl

theorem andThen_congr {o : Outcome} {next next' : SseFramer → Outcome}
    (h : ∀ f, o.ending = .ok f → next f = next' f) : o.andThen next = o.andThen next' := by
  obtain ⟨messages, e | f⟩ := o
  · rfl
  · simp only [andThen, h f rfl]

theorem andThen_eq_self {o : Outcome} {next : SseFramer → Outcome}
    (h : ∀ f, o.ending = .ok f → next f = ⟨[], .ok f⟩) : o.andThen next = o := by
  obtain ⟨messages, e | f⟩ := o
  · rfl
  · simp only [andThen, h f rfl, append_nil]

theorem andThen_assoc (o : Outcome) (next last : SseFramer → Outcome) :
    (o.andThen next).andThen last = o.andThen fun f => (next f).andThen last := by
  obtain ⟨messages, e | f⟩ := o
  · rfl
  · cases hnext : (next f).ending with
    | error e | ok g => simp [andThen, hnext]

end Outcome

def Pushed.outcome (p : Pushed) : Outcome := ⟨p.messages, p.result.map fun _ => p.framer⟩

def always : SseMessage → Bool := fun _ => true

namespace SseFramer

theorem readLine_result (f : SseFramer) (line : List UInt8) : (f.readLine always line).result ≠ .ok false := by
  unfold readLine applyLine
  split_ifs
  all_goals try split
  all_goals simp [always]

/-- The outcome of a line taken from the stream: nothing is pending any more. -/
def settle (f : SseFramer) (line : List UInt8) : Outcome :=
  ({ f with pending := [], heldCr := false }.readLine always line).outcome

def fed (f : SseFramer) (input : List UInt8) : Outcome := (f.feed always input).outcome

open Pushed

theorem settle_refused (f : SseFramer) (h : ¬Utf8.Valid line) : f.settle line = ⟨[], .error .invalidUtf8⟩ := by
  simp [settle, readLine, h, outcome, Except.map]

theorem settle_ending {g : SseFramer} (h : (f.settle line).ending = .ok g) :
    g.pending = [] ∧ g.heldCr = false ∧ g.atStart = f.atStart := by
  have hsets := setsFields_readLine { f with pending := [], heldCr := false } always line
  unfold settle outcome at h
  cases hresult : (readLine { f with pending := [], heldCr := false } always line).result with
  | error e => simp [hresult, Except.map] at h
  | ok continues =>
    simp only [hresult, Except.map, Except.ok.injEq] at h
    rw [← h]
    exact ⟨hsets.pending, hsets.heldCr, hsets.atStart⟩

theorem fed_of_error {e : FrameError} (h : (f.takeLine input).result = .error e) : f.fed input = ⟨[], .error e⟩ := by
  unfold fed
  rw [feed]
  split
  all_goals rename_i heq
  all_goals cases h.symm.trans heq
  rfl

theorem fed_of_none (h : (f.takeLine input).result = .ok none) : f.fed input = ⟨[], .ok (f.takeLine input).framer⟩ := by
  unfold fed
  rw [feed]
  split
  all_goals rename_i heq
  all_goals cases h.symm.trans heq
  rfl

theorem fed_of_some (h : (f.takeLine input).result = .ok (some (line, rest))) :
    f.fed input = (f.settle line).andThen fun g => g.fed rest := by
  obtain ⟨htook, -⟩ := takeLine_some h
  have hcontinues := readLine_result { f with pending := [], heldCr := false } line
  unfold fed
  rw [feed]
  split
  case h_3 line' rest' heq =>
    cases h.symm.trans heq
    rw [htook]
    unfold settle outcome
    generalize readLine { f with pending := [], heldCr := false } always line = read at hcontinues ⊢
    obtain ⟨messages, _ | _ | _, g⟩ := read
    · rfl
    · exact absurd rfl hcontinues
    · rfl
  all_goals rename_i heq
  all_goals cases h.symm.trans heq

/-- A framer between two calls holds a line that a later byte may still complete. -/
def Sound (f : SseFramer) : Prop := f.heldCr = true ∨ Utf8.Completable f.pending

theorem fed_nil (h : f.Sound) : f.fed [] = ⟨[], .ok f⟩ := by
  have htook : f.takeLine [] = ⟨.ok none, f⟩ := by
    cases hheld : f.heldCr with
    | true => simp [takeLine, hheld]
    | false =>
      have hpending : Utf8.Completable f.pending := h.resolve_left (by simp [hheld])
      simp [takeLine, hheld, findEol, checkPendingUtf8, utf8OkOrIncomplete_eq_ok.mpr hpending]
  rw [fed_of_none (by rw [htook]), htook]

theorem fed_full (hheld : f.heldCr = false) (hpending : Utf8.Completable f.pending) (rest : List UInt8)
    (hfull : f.maxEventBytes < f.pending.length ∨ f.maxEventBytes = f.pending.length ∧ byte ≠ lf ∧ byte ≠ cr) :
    f.fed (byte :: rest) = ⟨[], .error (f.oversize "line")⟩ := by
  have hroom : f.room = 0 := by
    unfold room
    omega
  have hoverflow : (f.overflow (byte :: rest)).result = .error (f.oversize "line") := by
    simp [overflow, hroom, extend, checkPendingUtf8, utf8OkOrIncomplete_eq_ok.mpr hpending]
  have htook : f.takeLine (byte :: rest) = f.overflow (byte :: rest) := by
    have hlong {rel : Nat} (h : findEol (byte :: rest) = some rel) : f.maxEventBytes < f.pending.length + rel := by
      obtain hlt | ⟨heq, hlf, hcr⟩ := hfull
      · omega
      · rw [findEol_cons_other hlf hcr] at h
        obtain ⟨rel', -, rfl⟩ := Option.map_eq_some_iff.mp h
        omega
    cases heol : findEol (byte :: rest) with
    | some rel => simp [takeLine, hheld, heol, hlong heol]
    | none => simp [takeLine, hheld, heol, hroom]
  exact fed_of_error (by rw [htook, hoverflow])

theorem fed_held_lf (hheld : f.heldCr = true) (rest : List UInt8) :
    f.fed (lf :: rest) = (f.settle f.pending).andThen fun g => g.fed rest :=
  fed_of_some (by simp [takeLine, hheld])

theorem fed_held_other (hheld : f.heldCr = true) (hlf : byte ≠ lf) (rest : List UInt8) :
    f.fed (byte :: rest) = (f.settle f.pending).andThen fun g => g.fed (byte :: rest) :=
  fed_of_some (by simp [takeLine, hheld, hlf])

section

variable (hheld : f.heldCr = false) (hroom : f.pending.length ≤ f.maxEventBytes)

include hheld hroom

theorem fed_lf (rest : List UInt8) : f.fed (lf :: rest) = (f.settle f.pending).andThen fun g => g.fed rest :=
  fed_of_some (by simp [takeLine, hheld, findEol_cons_eol, Nat.not_lt.mpr hroom])

theorem fed_cr_nil (hpending : Utf8.Completable f.pending) : f.fed [cr] = ⟨[], .ok { f with heldCr := true }⟩ := by
  have htook : f.takeLine [cr] = ⟨.ok none, { f with heldCr := true }⟩ := by
    simp [takeLine, hheld, findEol_cons_eol, Nat.not_lt.mpr hroom, cr, lf, utf8OkOrIncomplete_eq_ok.mpr hpending]
  rw [fed_of_none (by rw [htook]), htook]

theorem fed_cr_cons (byte : UInt8) (rest : List UInt8) : f.fed (cr :: byte :: rest) =
      (f.settle f.pending).andThen fun g => g.fed (if byte = lf then rest else byte :: rest) := by
  apply fed_of_some
  by_cases hlf : byte = lf
  · simp [takeLine, hheld, findEol_cons_eol, Nat.not_lt.mpr hroom, cr, lf, hlf]
  · simp [takeLine, hheld, findEol_cons_eol, Nat.not_lt.mpr hroom, cr, hlf]

end

theorem fed_other (hheld : f.heldCr = false)
    (hroom : f.pending.length < f.maxEventBytes) (hlf : byte ≠ lf) (hcr : byte ≠ cr)
    (rest : List UInt8) : f.fed (byte :: rest) = (f.extend [byte]).fed rest := by
  unfold fed
  rw [feed, feed, takeLine_cons hheld hroom hlf hcr rest]

open Outcome

theorem fed_refused (hheld : f.heldCr = false) (hrefused : ¬Utf8.Completable f.pending) (input : List UInt8) :
    f.fed input = ⟨[], .error .invalidUtf8⟩ := by
  obtain herror | ⟨line, rest, hsome, hinvalid⟩ := takeLine_refused hheld hrefused input
  · exact fed_of_error herror
  · rw [fed_of_some hsome, settle_refused f hinvalid, andThen_error]

theorem takeLine_none_sound (h : (f.takeLine input).result = .ok none) :
    (f.takeLine input).framer.Sound ∧ (f.takeLine input).framer.atStart = f.atStart := by
  obtain ⟨e, hoverflow⟩ := f.overflow_error input
  revert h
  fun_cases takeLine f input
  case case1 hheld => exact fun _ => ⟨.inl hheld, rfl⟩
  case case7 => exact fun _ => ⟨.inl rfl, rfl⟩
  case case10 hchecked => exact fun _ => ⟨.inr (utf8OkOrIncomplete_eq_ok.mp hchecked), rfl⟩
  all_goals
    intro h
    first | cases hoverflow.symm.trans h | cases h

theorem fed_ending {g : SseFramer} (h : (f.fed input).ending = .ok g) : g.Sound ∧ g.atStart = f.atStart := by
  induction hmeasure : f.measure input using Nat.strongRecOn generalizing f input with
  | ind n ih =>
    cases htook : (f.takeLine input).result with
    | error e =>
      rw [fed_of_error htook] at h
      cases h
    | ok taken =>
      cases taken with
      | none =>
        rw [fed_of_none htook] at h
        cases h
        exact takeLine_none_sound htook
      | some taken =>
        obtain ⟨line, rest⟩ := taken
        rw [fed_of_some htook] at h
        cases hsettle : (f.settle line).ending with
        | error e => simp [andThen, hsettle] at h
        | ok f' =>
          obtain ⟨hpending, hheld, hstart⟩ := settle_ending hsettle
          have hlt : f'.measure rest < n := by
            have hmeasure' := (takeLine_some htook).2
            rw [hmeasure] at hmeasure'
            simpa [measure, hheld] using hmeasure'
          simp only [andThen, hsettle] at h
          obtain ⟨hsound, hstart'⟩ := ih _ hlt h rfl
          exact ⟨hsound, hstart'.trans hstart⟩

theorem fed_fed_nil (f : SseFramer) (input : List UInt8) : ((f.fed input).andThen fun g => g.fed []) = f.fed input :=
  andThen_eq_self fun _ h => fed_nil (fed_ending h).1

theorem settle_fed_nil (f : SseFramer) (line rest : List UInt8) :
    (((f.settle line).andThen fun g => g.fed []).andThen fun g => g.fed rest) =
      (f.settle line).andThen fun g => g.fed rest := by
  rw [andThen_assoc]
  apply andThen_congr
  intro g hg
  have hsound : g.Sound := .inr (by rw [(settle_ending hg).1]; exact Utf8.completable_nil)
  rw [fed_nil hsound, andThen_quiet]

theorem fed_cons_of_not_held (hheld : f.heldCr = false)
    (hpending : Utf8.Completable f.pending) (byte : UInt8) (rest : List UInt8) :
    f.fed (byte :: rest) = (f.fed [byte]).andThen fun g => g.fed rest := by
  by_cases hlong : f.maxEventBytes < f.pending.length
  · rw [fed_full hheld hpending rest (.inl hlong), fed_full hheld hpending [] (.inl hlong), andThen_error]
  have hroom := Nat.not_lt.mp hlong
  by_cases hlf : byte = lf
  · subst hlf
    rw [fed_lf hheld hroom, fed_lf hheld hroom, settle_fed_nil]
  by_cases hcr : byte = cr
  · subst hcr
    cases rest with
    | nil => rw [fed_fed_nil]
    | cons next rest =>
      rw [fed_cr_cons hheld hroom, fed_cr_nil hheld hroom hpending, andThen_quiet]
      by_cases hnext : next = lf
      · subst hnext
        rw [fed_held_lf rfl, if_pos rfl]
        rfl
      · rw [fed_held_other rfl hnext, if_neg hnext]
        rfl
  obtain hlt | heq := Nat.lt_or_eq_of_le hroom
  · rw [fed_other hheld hlt hlf hcr, fed_other hheld hlt hlf hcr]
    by_cases hgrown : Utf8.Completable (f.extend [byte]).pending
    · rw [fed_nil (.inr hgrown), andThen_quiet]
    · have hheld' : (f.extend [byte]).heldCr = false := hheld
      rw [fed_refused hheld' hgrown, fed_refused hheld' hgrown, andThen_error]
  · rw [fed_full hheld hpending rest (.inr ⟨heq.symm, hlf, hcr⟩),
      fed_full hheld hpending [] (.inr ⟨heq.symm, hlf, hcr⟩), andThen_error]

theorem fed_cons (hsound : f.Sound) (byte : UInt8) (rest : List UInt8) :
    f.fed (byte :: rest) = (f.fed [byte]).andThen fun g => g.fed rest := by
  cases hheld : f.heldCr with
  | false => exact fed_cons_of_not_held hheld (hsound.resolve_left (by simp [hheld])) byte rest
  | true =>
    by_cases hlf : byte = lf
    · subst hlf
      rw [fed_held_lf hheld, fed_held_lf hheld, settle_fed_nil]
    · rw [fed_held_other hheld hlf, fed_held_other hheld hlf, andThen_assoc]
      -- the held line is settled first, and the byte is then read by a framer with nothing pending
      apply andThen_congr
      intro g hg
      obtain ⟨hpending, hheld', -⟩ := settle_ending hg
      exact fed_cons_of_not_held hheld' (by rw [hpending]; exact Utf8.completable_nil) byte rest

/-! ## The byte order mark -/

def pushed (f : SseFramer) (chunk : List UInt8) : Outcome := (f.push always chunk).outcome

/-- A framer between two calls: sound, and while the byte order mark is undecided it holds less than
the whole of one and no `\r`. -/
structure Between (f : SseFramer) : Prop where
  sound : f.Sound
  heldCr : f.atStart = true → f.heldCr = false
  undecided : f.atStart = true → ∃ k < bom.length, f.pending = bom.take k

theorem between_new (maxEventBytes : Nat) : (new maxEventBytes).Between where
  sound := .inr Utf8.completable_nil
  heldCr _ := rfl
  undecided _ := ⟨0, by decide, rfl⟩

/-- The first bytes of the stream, as many as a byte order mark has. -/
def seen (f : SseFramer) (input : List UInt8) : List UInt8 :=
  f.pending.take bom.length ++ f.fromInput input

theorem seen_eq (h : f.pending.length ≤ bom.length) (input : List UInt8) :
    f.seen input = f.pending ++ f.fromInput input := by
  rw [seen, take_of_length_le h]

section

variable (h : f.pending.length < bom.length) (byte : UInt8) (rest : List UInt8)

include h

theorem fromInput_cons : f.fromInput (byte :: rest) = byte :: (f.extend [byte]).fromInput rest := by
  have hlength : (f.extend [byte]).pending.length = f.pending.length + 1 := length_append
  have hneed : bom.length - (f.pending.take bom.length).length =
      bom.length - ((f.extend [byte]).pending.take bom.length).length + 1 := by
    simp only [length_take, hlength]
    omega
  rw [fromInput, fromInput, hneed, take_succ_cons]

theorem seen_cons : f.seen (byte :: rest) = (f.extend [byte]).seen rest := by
  have hlength : (f.extend [byte]).pending.length ≤ bom.length := by
    simpa [extend] using Nat.succ_le_of_lt h
  rw [seen_eq (Nat.le_of_lt h), seen_eq hlength, fromInput_cons h, extend, append_assoc, singleton_append]

end

theorem consumeBom_eq (f : SseFramer) (input : List UInt8) : f.consumeBom input =
      if f.seen input = [] then (input, f)
      else if f.seen input = bom.take (f.seen input).length then
        if (f.seen input).length < bom.length then
          (input.drop (f.fromInput input).length, { f with pending := f.seen input })
        else (input.drop (f.fromInput input).length, { f with pending := [], atStart := false })
      else (input, { f with atStart := false }) :=
  rfl

theorem consumeBom_cons (h : f.pending.length < bom.length) (hseen : f.seen (byte :: rest) <+: bom) :
    f.consumeBom (byte :: rest) = (f.extend [byte]).consumeBom rest := by
  have hne : f.seen (byte :: rest) ≠ [] := by
    rw [seen_eq (Nat.le_of_lt h), fromInput_cons h]
    simp
  rw [consumeBom_eq, consumeBom_eq, fromInput_cons h, ← seen_cons h, if_neg hne, if_neg hne,
    if_pos (prefix_iff_eq_take.mp hseen), if_pos (prefix_iff_eq_take.mp hseen)]
  rfl

theorem consumeBom_mismatch (h : ¬f.seen input <+: bom) :
    f.consumeBom input = (input, { f with atStart := false }) := by
  rw [prefix_iff_eq_take] at h
  have hne : f.seen input ≠ [] := by
    intro hnil
    simp [hnil] at h
  unfold seen at h hne
  simp only [consumeBom, if_neg hne, if_neg h]

theorem pushed_of_started (h : f.atStart = false) (chunk : List UInt8) : f.pushed chunk = f.fed chunk := by
  simp [pushed, push, fed, h]

theorem pushed_of_mismatch (hstart : f.atStart = true) {chunk : List UInt8}
    (h : ¬f.seen chunk <+: bom) : f.pushed chunk = { f with atStart := false }.fed chunk := by
  simp [pushed, push, hstart, consumeBom_mismatch h, fed]

theorem pushed_of_bom (hstart : f.atStart = true) (h : f.pending = bom)
    (chunk : List UInt8) : f.pushed chunk = { f with pending := [], atStart := false }.fed chunk := by
  have hconsumed : f.consumeBom chunk = (chunk, { f with pending := [], atStart := false }) := by
    simp [consumeBom, fromInput, h, bom]
  simp [pushed, push, hstart, hconsumed, fed]

theorem pushed_of_seen (hstart : f.atStart = true) (h : f.pending.length < bom.length)
    (hseen : f.seen (byte :: rest) <+: bom) :
    f.pushed (byte :: rest) = (f.extend [byte]).pushed rest := by
  have hstart' : (f.extend [byte]).atStart = true := hstart
  simp only [pushed, push, hstart, hstart', if_true, consumeBom_cons h hseen]

theorem completable_of_prefix_bom (h : bytes <+: bom) : Utf8.Completable bytes := by
  obtain ⟨rest, hrest⟩ := h
  have hbom : Utf8.Completable bom := by decide
  rw [← hrest] at hbom
  exact hbom.of_append

theorem length_pending_of_undecided {k : Nat} (hk : k < bom.length)
    (hpending : f.pending = bom.take k) : f.pending.length = k := by
  rw [hpending, length_take, Nat.min_eq_left (Nat.le_of_lt hk)]

theorem pushed_nil (h : f.Between) : f.pushed [] = ⟨[], .ok f⟩ := by
  cases hstart : f.atStart with
  | false => rw [pushed_of_started hstart, fed_nil h.sound]
  | true =>
    obtain ⟨k, hk, hpending⟩ := h.undecided hstart
    have hlength := length_pending_of_undecided hk hpending
    have hseen : f.seen [] = f.pending := by
      rw [seen_eq (by omega), fromInput, take_nil, append_nil]
    have hmatch : f.pending = bom.take f.pending.length := by rw [hlength, hpending]
    have hconsumed : f.consumeBom [] = ([], f) := by
      rw [consumeBom_eq, hseen]
      by_cases hnil : f.pending = []
      · rw [if_pos hnil]
      · rw [if_neg hnil, if_pos hmatch, if_pos (by omega), drop_nil]
    simp [pushed, push, hstart, hconsumed, outcome, Except.map]

theorem fed_of_false_bom (hheld : f.heldCr = false) (hbyte : f.pending ++ [byte] <+: bom) (hrest : rest ≠ []) :
    f.fed (byte :: rest) = (f.extend [byte]).fed rest := by
  have hmem : byte ∈ bom := hbyte.subset (by simp)
  have hlf : byte ≠ lf := by
    rintro rfl
    exact absurd hmem (by decide)
  have hcr : byte ≠ cr := by
    rintro rfl
    exact absurd hmem (by decide)
  by_cases hroom : f.pending.length < f.maxEventBytes
  · exact fed_other hheld hroom hlf hcr rest
  · have hpending : Utf8.Completable f.pending := (completable_of_prefix_bom hbyte).of_append
    have hgrown : Utf8.Completable (f.extend [byte]).pending := completable_of_prefix_bom hbyte
    have hlong : (f.extend [byte]).maxEventBytes < (f.extend [byte]).pending.length := by
      simp only [extend, length_append, length_singleton]
      omega
    obtain ⟨next, rest, rfl⟩ := exists_cons_of_ne_nil hrest
    have hheld' : (f.extend [byte]).heldCr = false := hheld
    rw [fed_full hheld' hgrown rest (.inl hlong), fed_full hheld hpending (next :: rest)]
    · rfl
    · obtain hlt | heq := Nat.lt_or_eq_of_le (Nat.not_lt.mp hroom)
      · exact .inl hlt
      · exact .inr ⟨heq, hlf, hcr⟩

theorem seen_singleton (h : f.pending.length < bom.length) (byte : UInt8) : f.seen [byte] = f.pending ++ [byte] := by
  rw [seen_eq (Nat.le_of_lt h), fromInput_cons h, fromInput, take_nil]

theorem pushed_cons_of_prefix (h : f.Between) (hstart : f.atStart = true) (hbyte : f.pending ++ [byte] <+: bom)
    (rest : List UInt8) :
    f.pushed (byte :: rest) = (f.pushed [byte]).andThen fun g => g.pushed rest := by
  obtain ⟨k, hk, hpending⟩ := h.undecided hstart
  have hlength := length_pending_of_undecided hk hpending
  have hlt : f.pending.length < bom.length := by omega
  have hgrown : (f.extend [byte]).pending = bom.take (k + 1) := by
    have hmatch := prefix_iff_eq_take.mp hbyte
    rwa [length_append, hlength] at hmatch
  have hstart' : (f.extend [byte]).atStart = true := hstart
  have hsingle : f.pushed [byte] = (f.extend [byte]).pushed [] :=
    pushed_of_seen hstart hlt (by rwa [seen_singleton hlt])
  rw [hsingle]
  obtain hmore | hwhole := Nat.lt_or_eq_of_le (Nat.succ_le_of_lt hk)
  · -- the mark is still undecided after this byte
    have hbetween : (f.extend [byte]).Between :=
      { sound := .inr (completable_of_prefix_bom hbyte)
        heldCr := h.heldCr
        undecided := fun _ => ⟨k + 1, hmore, hgrown⟩ }
    rw [pushed_nil hbetween, andThen_quiet]
    by_cases hseen : f.seen (byte :: rest) <+: bom
    · exact pushed_of_seen hstart hlt hseen
    · have hrest : rest ≠ [] := by
        rintro rfl
        exact hseen (by rwa [seen_singleton hlt])
      rw [pushed_of_mismatch hstart hseen, pushed_of_mismatch hstart' (by rwa [← seen_cons hlt])]
      exact @fed_of_false_bom { f with atStart := false } byte rest (h.heldCr hstart) hbyte hrest
  · -- this byte completes it
    have hbom : (f.extend [byte]).pending = bom := by
      rw [hgrown, ← Nat.succ_eq_add_one, hwhole, take_length]
    have hseen : f.seen (byte :: rest) <+: bom := by
      rw [seen_cons hlt, seen, hbom]
      simp [fromInput, hbom]
    rw [pushed_of_seen hstart hlt hseen, pushed_of_bom hstart' hbom, pushed_of_bom hstart' hbom,
      fed_nil (.inr Utf8.completable_nil), andThen_quiet, pushed_of_started rfl]

theorem pushed_cons (h : f.Between) (byte : UInt8) (rest : List UInt8) :
    f.pushed (byte :: rest) = (f.pushed [byte]).andThen fun g => g.pushed rest := by
  -- past the start of the stream, pushing is feeding
  have hfed (g : SseFramer) (hstart : g.atStart = false) (hsound : g.Sound) :
      g.fed (byte :: rest) = (g.fed [byte]).andThen fun g' => g'.pushed rest := by
    rw [fed_cons hsound]
    apply andThen_congr
    intro g' hg'
    rw [pushed_of_started ((fed_ending hg').2.trans hstart)]
  cases hstart : f.atStart with
  | false => rw [pushed_of_started hstart, pushed_of_started hstart, hfed f hstart h.sound]
  | true =>
    by_cases hbyte : f.pending ++ [byte] <+: bom
    · exact pushed_cons_of_prefix h hstart hbyte rest
    · obtain ⟨k, hk, hpending⟩ := h.undecided hstart
      have hlt : f.pending.length < bom.length := by
        rwa [length_pending_of_undecided hk hpending]
      have hrest : ¬f.seen (byte :: rest) <+: bom := by
        rw [seen_eq (Nat.le_of_lt hlt), fromInput_cons hlt]
        exact fun hseen => hbyte ((by simp : f.pending ++ [byte] <+: _).trans hseen)
      rw [pushed_of_mismatch hstart hrest, pushed_of_mismatch hstart (by rwa [seen_singleton hlt])]
      exact hfed _ rfl h.sound

theorem pushed_between {g : SseFramer} (h : f.Between) {chunk : List UInt8}
    (hg : (f.pushed chunk).ending = .ok g) : g.Between := by
  have hfed {f' : SseFramer} {input : List UInt8} (hstart : f'.atStart = false)
      (hf' : (f'.fed input).ending = .ok g) : g.Between := by
    obtain ⟨hsound, hstart'⟩ := fed_ending hf'
    have hstarted : ¬g.atStart = true := by simp [hstart', hstart]
    exact ⟨hsound, fun h => absurd h hstarted, fun h => absurd h hstarted⟩
  cases hstart : f.atStart with
  | false =>
    rw [pushed_of_started hstart] at hg
    exact hfed hstart hg
  | true =>
    by_cases hseen : f.seen chunk <+: bom
    · have hconsumed := f.consumeBom_eq chunk
      rw [if_pos (prefix_iff_eq_take.mp hseen)] at hconsumed
      unfold pushed push at hg
      split_ifs at hconsumed with hnil hmore
      all_goals simp only [hstart, hconsumed, if_true, Bool.false_eq_true, if_false] at hg
      · cases hg
        exact h
      · cases hg
        exact
          { sound := .inr (completable_of_prefix_bom hseen)
            heldCr := fun _ => h.heldCr hstart
            undecided := fun _ => ⟨_, hmore, prefix_iff_eq_take.mp hseen⟩ }
      · exact @hfed { f with pending := [], atStart := false } _ rfl hg
    · rw [pushed_of_mismatch hstart hseen] at hg
      exact hfed rfl hg

theorem pushed_append (h : f.Between) (a b : List UInt8) :
    f.pushed (a ++ b) = (f.pushed a).andThen fun g => g.pushed b := by
  induction a generalizing f with
  | nil => rw [nil_append, pushed_nil h, andThen_quiet]
  | cons byte rest ih =>
    rw [cons_append, pushed_cons h, pushed_cons h byte rest, andThen_assoc]
    exact andThen_congr fun g hg => ih (pushed_between h hg)

def conclude (o : Outcome) : List SseMessage × Option FrameError :=
  match o.ending with
  | .error e => (o.messages, some e)
  | .ok f => (o.messages ++ (f.run always []).1, (f.run always []).2)

theorem conclude_andThen_ok {o : Outcome} (h : o.ending = .ok f) (next : SseFramer → Outcome) :
    conclude (o.andThen next) = (o.messages ++ (conclude (next f)).1, (conclude (next f)).2) := by
  cases hnext : (next f).ending <;> simp [conclude, andThen, h, hnext]

theorem run_eq (h : f.Between) (chunks : List (List UInt8)) :
    f.run always chunks = conclude (f.pushed chunks.flatten) := by
  induction chunks generalizing f with
  | nil =>
    rw [flatten_nil, pushed_nil h]
    rfl
  | cons chunk chunks ih =>
    rw [flatten_cons, pushed_append h, run]
    cases hresult : (f.push always chunk).result with
    | error e => simp [pushed, outcome, hresult, Except.map, conclude]
    | ok continues =>
      have hending : (f.pushed chunk).ending = .ok (f.push always chunk).framer := by
        simp [pushed, outcome, hresult, Except.map]
      rw [conclude_andThen_ok hending, ih (pushed_between h hending)]
      rfl

example : (new 8).run always [ascii "data:a\n", ascii "\n"] =
    ([{ event := ascii "message", data := ascii "a" }], none) := by decide +kernel

/-! ## The caps -/

/-- Every buffer of the framer is within the cap, except for the two bytes of an undecided byte order
mark. -/
structure Capped (cap : Nat) (f : SseFramer) : Prop where
  maxEventBytes : f.maxEventBytes = cap
  pending : f.pending.length ≤ max cap 2
  event : f.event.length ≤ cap
  data : f.data.length ≤ cap
  id : f.id.length ≤ cap

theorem capped_new (cap : Nat) : (new cap).Capped cap where
  maxEventBytes := rfl
  pending := Nat.zero_le _
  event := Nat.zero_le _
  data := Nat.zero_le _
  id := Nat.zero_le _

variable {cap : Nat}

theorem SetsFields.capped {g : SseFramer} (h : SetsFields f g) (hf : f.Capped cap) : g.Capped cap where
  maxEventBytes := h.maxEventBytes.trans hf.maxEventBytes
  pending := h.pending ▸ hf.pending
  event := Nat.le_trans h.event (Nat.max_le.mpr ⟨hf.event, Nat.le_of_eq hf.maxEventBytes⟩)
  data := Nat.le_trans h.data (Nat.max_le.mpr ⟨hf.data, Nat.le_of_eq hf.maxEventBytes⟩)
  id := Nat.le_trans h.id (Nat.max_le.mpr ⟨hf.id, Nat.le_of_eq hf.maxEventBytes⟩)

theorem Capped.overflow (h : f.Capped cap) (input : List UInt8) : (f.overflow input).framer.Capped cap := by
  have hlength : (f.extend (input.take f.room)).pending.length ≤ max cap 2 := by
    have hmax := h.maxEventBytes
    have hpending := h.pending
    simp only [extend, room, length_append, length_take]
    omega
  unfold SseFramer.overflow
  dsimp only
  split
  · exact { h with pending := hlength }
  · exact { h with pending := hlength }

theorem Capped.takeLine (h : f.Capped cap) (input : List UInt8) : (f.takeLine input).framer.Capped cap := by
  have hmax := h.maxEventBytes
  fun_cases SseFramer.takeLine f input
  case case1 => exact h
  case case3 | case8 => exact h.overflow input
  case case2 | case4 | case5 | case6 => exact { h with pending := zero_le _ }
  case case7 rel hcap _ line _ _ _ =>
    have hlength : line.length ≤ max cap 2 := by
      simp only [line, length_append, length_take]
      omega
    exact { h with pending := hlength }
  case case9 hcap grown _ | case10 hcap grown _ =>
    have hlength : grown.pending.length ≤ max cap 2 := by
      have hpending := h.pending
      simp only [grown, extend, room, length_append] at hcap ⊢
      omega
    exact { h with pending := hlength }

theorem Capped.feed (h : f.Capped cap) (onMessage : SseMessage → Bool)
    (input : List UInt8) : (f.feed onMessage input).framer.Capped cap := by
  fun_induction SseFramer.feed f onMessage input with
  | case1 | case2 => exact h.takeLine _
  | case3 f input line rest _ read _ after ih =>
    exact ih ((setsFields_readLine _ onMessage line).capped (h.takeLine input))
  | case4 f input line rest _ read _ =>
    exact (setsFields_readLine _ onMessage line).capped (h.takeLine input)

theorem Capped.push (h : f.Capped cap) (onMessage : SseMessage → Bool)
    (chunk : List UInt8) : (f.push onMessage chunk).framer.Capped cap := by
  have hbom : (f.consumeBom chunk).2.Capped cap := by
    rw [consumeBom_eq]
    split_ifs with hnil hmatch hmore
    · exact h
    · exact { h with pending := Nat.le_trans (Nat.le_of_lt_succ hmore) (Nat.le_max_right _ _) }
    · exact { h with pending := Nat.zero_le _ }
    · exact { h with }
  unfold SseFramer.push
  dsimp only
  split_ifs
  · exact hbom
  · exact hbom.feed onMessage _
  · exact h.feed onMessage chunk

/-- The framer after chunks have been pushed, whatever each call returned. -/
def pushAll (f : SseFramer) (onMessage : SseMessage → Bool) (chunks : List (List UInt8)) : SseFramer :=
  chunks.foldl (fun f chunk => (f.push onMessage chunk).framer) f

theorem Capped.pushAll (h : f.Capped cap) (onMessage : SseMessage → Bool) (chunks : List (List UInt8)) :
    (f.pushAll onMessage chunks).Capped cap := by
  induction chunks generalizing f with
  | nil => exact h
  | cons chunk chunks ih => exact ih (h.push onMessage chunk)

/-- How a stream is cut into chunks changes neither the messages it delivers nor the error it ends
with, and no buffer outgrows its cap after any push. -/
theorem run_eq_of_flatten_eq (cap : Nat) (chunks chunks' : List (List UInt8)) (h : chunks.flatten = chunks'.flatten) :
    (new cap).run always chunks = (new cap).run always chunks' ∧
      ∀ onMessage pushes, ((new cap).pushAll onMessage pushes).Capped cap := by
  refine ⟨?_, fun onMessage pushes => (capped_new cap).pushAll onMessage pushes⟩
  rw [run_eq (between_new cap), run_eq (between_new cap), h]

/-- A stream with a byte order mark, a two byte character and `\r\n` ends of line, whole and cut
inside each of them. -/
theorem run_eq_of_flatten_eq_split :
    (new 8).run always [[0xEF, 0xBB, 0xBF, 0x64, 0x61, 0x74, 0x61, 0x3A, 0xC3, 0xA9, 0x0D, 0x0A, 0x0D, 0x0A]] =
        (new 8).run always
          [[0xEF], [], [0xBB, 0xBF, 0x64, 0x61, 0x74, 0x61, 0x3A, 0xC3], [0xA9, 0x0D], [0x0A, 0x0D], [0x0A]] ∧
      ∀ onMessage pushes, ((new 8).pushAll onMessage pushes).Capped 8 :=
  run_eq_of_flatten_eq 8 _ _ rfl

end SseFramer

end Rvc.BnManager.Sse
