import Mathlib.Tactic.Common

/-!
# Computations that record their calls

`Traced κ ε α` is a computation that may fail and that lists the calls it made to the outside, in order and
also when it fails. What it does to the outside is a property of that list; the rules below prove one along
the steps of the computation.
-/

namespace Rvc.Lib

structure Traced (κ ε α : Type) where
  result : Except ε α
  calls : List κ

namespace Traced

variable {κ ε ε' α β : Type}

def ofExcept (x : Except ε α) : Traced κ ε α := ⟨x, []⟩

def call (k : κ) (answer : Except ε α) : Traced κ ε α := ⟨answer, [k]⟩

def andThen (x : Traced κ ε α) (f : α → Traced κ ε β) : Traced κ ε β :=
  match x.result with
  | .ok a => ⟨(f a).result, x.calls ++ (f a).calls⟩
  | .error e => ⟨.error e, x.calls⟩

instance : Monad (Traced κ ε) where
  pure a := ofExcept (.ok a)
  bind := andThen

def mapError (f : ε → ε') (x : Traced κ ε α) : Traced κ ε' α := ⟨x.result.mapError f, x.calls⟩

@[simp] theorem calls_mapError (f : ε → ε') (x : Traced κ ε α) : (x.mapError f).calls = x.calls := rfl

@[simp] theorem calls_pure (a : α) : (pure a : Traced κ ε α).calls = [] := rfl

@[simp] theorem calls_ofExcept (x : Except ε α) : (ofExcept x : Traced κ ε α).calls = [] := rfl

@[simp] theorem calls_call (k : κ) (x : Except ε α) : (call k x).calls = [k] := rfl

/-! ### Computations that end well -/

variable {f : α → Traced κ ε β} {x : Except ε α}

theorem ofExcept_bind_ok {b : β} (h : (ofExcept x >>= f).result = .ok b) :
    ∃ a, x = .ok a ∧ (f a).result = .ok b ∧ (ofExcept x >>= f).calls = (f a).calls := by
  cases x with
  | error e => cases h
  | ok a => exact ⟨a, rfl, h, rfl⟩

theorem call_bind_ok {k : κ} {b : β} (h : (call k x >>= f).result = .ok b) :
    ∃ a, x = .ok a ∧ (f a).result = .ok b ∧ (call k x >>= f).calls = k :: (f a).calls := by
  cases x with
  | error e => cases h
  | ok a => exact ⟨a, rfl, h, rfl⟩

/-! ### Rules -/

/-- Each call is one that `R` allows after the calls before it. -/
def EachAfter (R : List κ → κ → Prop) (past : List κ) : List κ → Prop
  | [] => True
  | k :: ks => R past k ∧ EachAfter R (past ++ [k]) ks

section

variable {R : List κ → κ → Prop} {past : List κ}

theorem eachAfter_append {ks ks' : List κ} (h : EachAfter R past ks) (h' : EachAfter R (past ++ ks) ks') :
    EachAfter R past (ks ++ ks') := by
  induction ks generalizing past with
  | nil => simpa using h'
  | cons k ks ih => exact ⟨h.1, ih h.2 (by simpa using h')⟩

theorem EachAfter.at_split {ks before after : List κ} {k : κ} (h : EachAfter R past ks)
    (hsplit : ks = before ++ k :: after) : R (past ++ before) k := by
  induction before generalizing past ks with
  | nil =>
    subst hsplit
    simpa using h.1
  | cons b before ih =>
    subst hsplit
    simpa using ih h.2 rfl

theorem eachAfter_ofExcept_bind
    (h : ∀ a, x = .ok a → EachAfter R past (f a).calls) : EachAfter R past (ofExcept x >>= f).calls := by
  cases x with
  | error e => trivial
  | ok a => exact h a rfl

theorem eachAfter_call_bind {k : κ} (hcall : R past k) (h : ∀ a, x = .ok a → EachAfter R (past ++ [k]) (f a).calls) :
    EachAfter R past (call k x >>= f).calls := by
  cases x with
  | error e => exact ⟨hcall, trivial⟩
  | ok a => exact ⟨hcall, h a rfl⟩

theorem eachAfter_bind {x : Traced κ ε α} (hx : EachAfter R past x.calls)
    (h : ∀ a, x.result = .ok a → EachAfter R (past ++ x.calls) (f a).calls) :
    EachAfter R past (x >>= f).calls := by
  show EachAfter R past (andThen x f).calls
  unfold andThen
  cases hresult : x.result with
  | error e => exact hx
  | ok a => exact eachAfter_append hx (h a hresult)

end

end Traced

end Rvc.Lib
