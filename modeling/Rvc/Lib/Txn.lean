import Mathlib.Tactic.Common

/-!
# A connection with one write transaction

`Conn σ` is a database connection: the committed state, and the view of the open transaction if there is
one. Outside a transaction a write commits at once, as in SQLite. Statements, `BEGIN` and `COMMIT` can fail,
and a failing one may abort the transaction by itself; `ROLLBACK` fails exactly when no transaction is open.

The rules at the end say what callers rely on: inside a transaction nothing reaches the committed state
(`runStatements_spec`), and an error inside `withImmediateTxn` is rolled back (`withImmediateTxn_cases`).
-/

namespace Rvc.Lib

open List

variable {σ ε α : Type*}

structure Conn (σ : Type*) where
  committed : σ
  txn : Option σ

/-- A failing statement: the engine's message, and whether the engine rolled back on its own. -/
structure Fault where
  message : String
  aborts : Bool
  deriving DecidableEq

/-! ### Statements in sequence -/

def applyAll (statements : List (σ → σ)) (s : σ) : σ := statements.foldl (fun s statement => statement s) s

variable {statements : List (σ → σ)}

section

variable {P : σ → Prop} (h : ∀ statement ∈ statements, ∀ s, P s → P (statement s))

include h

theorem applyAll_invariant {s : σ} (hs : P s) : P (applyAll statements s) := by
  induction statements generalizing s with
  | nil => exact hs
  | cons statement rest ih =>
    exact ih (fun g hg => h g (mem_cons_of_mem _ hg)) (h statement mem_cons_self s hs)

theorem applyAll_establishes {statement : σ → σ}
    (hmem : statement ∈ statements) (hstatement : ∀ s, P (statement s)) (s : σ) :
    P (applyAll statements s) := by
  induction statements generalizing s with
  | nil => simp at hmem
  | cons first rest ih =>
    have hrest : ∀ g ∈ rest, ∀ s, P s → P (g s) := fun g hg => h g (mem_cons_of_mem _ hg)
    rcases mem_cons.mp hmem with rfl | hmem
    · exact applyAll_invariant hrest (hstatement s)
    · exact ih hrest hmem (first s)

end

theorem applyAll_append (statements statements' : List (σ → σ)) (s : σ) :
    applyAll (statements ++ statements') s = applyAll statements' (applyAll statements s) :=
  foldl_append ..

theorem applyAll_flatMap_invariant {P : σ → Prop} {β : Type*} {groups : List β} {f : β → List (σ → σ)}
    (h : ∀ group ∈ groups, ∀ s, P s → P (applyAll (f group) s)) {s : σ} (hs : P s) :
    P (applyAll (groups.flatMap f) s) := by
  induction groups generalizing s with
  | nil => exact hs
  | cons group rest ih =>
    rw [flatMap_cons, applyAll_append]
    exact ih (fun g hg => h g (mem_cons_of_mem _ hg)) (h group mem_cons_self s hs)

theorem applyAll_commute {f : σ → σ} (h : ∀ statement ∈ statements, ∀ s, f (statement s) = statement (f s)) (s : σ) :
    f (applyAll statements s) = applyAll statements (f s) := by
  induction statements generalizing s with
  | nil => rfl
  | cons statement rest ih =>
    show f (applyAll rest (statement s)) = applyAll rest (statement (f s))
    rw [ih (fun g hg => h g (mem_cons_of_mem _ hg)), h statement mem_cons_self]

namespace Conn

section

variable (c : Conn σ)

def view : σ := c.txn.getD c.committed

/-- Store `s`: into the open transaction, or straight into the database. -/
def write (s : σ) : Conn σ :=
  match c.txn with
  | some _ => { c with txn := some s }
  | none => { c with committed := s }

def fail (fault : Fault) : Conn σ :=
  if fault.aborts then { c with txn := none } else c

def beginImmediate (fault : Option String) : Except String Unit × Conn σ :=
  match fault with
  | some message => (.error message, c)
  | none =>
      match c.txn with
      | some _ => (.error "cannot start a transaction within a transaction", c)
      | none => (.ok (), { c with txn := some c.committed })

def commit (fault : Option Fault) : Except String Unit × Conn σ :=
  match fault with
  | some fault => (.error fault.message, c.fail fault)
  | none =>
      match c.txn with
      | some s => (.ok (), ⟨s, none⟩)
      | none => (.error "cannot commit - no transaction is active", c)

def rollback : Except String Unit × Conn σ :=
  match c.txn with
  | some _ => (.ok (), { c with txn := none })
  | none => (.error "cannot rollback - no transaction is active", c)

end

/-- Statements one after another, the `n`-th failing when `faults n` says so; the first failure ends. -/
def runStatements (faults : Nat → Option Fault) : Nat → Conn σ → List (σ → σ) → Except String Unit × Conn σ
  | _, c, [] => (.ok (), c)
  | n, c, statement :: rest =>
      match faults n with
      | some fault => (.error fault.message, c.fail fault)
      | none => runStatements faults (n + 1) (c.write (statement c.view)) rest

section

variable (wrap : String → ε) (c : Conn σ) (fault : Option Fault)

/-- A read on the connection, or the failure the engine answers with. -/
def query (f : σ → Except ε α) : Except ε α × Conn σ :=
  match fault with
  | some fault => (.error (wrap fault.message), c.fail fault)
  | none => (f c.view, c)

/-- A write on the connection; a refused one changes nothing. -/
def execute (f : σ → Except ε σ) : Except ε Unit × Conn σ :=
  match fault with
  | some fault => (.error (wrap fault.message), c.fail fault)
  | none =>
      match f c.view with
      | .ok s => (.ok (), c.write s)
      | .error e => (.error e, c)

/-- `BEGIN IMMEDIATE`, then `body`; an error of `body` is followed by one `ROLLBACK`, whose own result is
ignored. -/
def withImmediateTxn (fault : Option String) (body : Conn σ → Except ε α × Conn σ) : Except ε α × Conn σ :=
  match c.beginImmediate fault with
  | (.error message, c) => (.error (wrap message), c)
  | (.ok (), c) =>
      match body c with
      | (.ok a, c) => (.ok a, c)
      | (.error e, c) => (.error e, c.rollback.2)

end

/-! ### Rules -/

@[simp] theorem view_mk_some (committed s : σ) : (Conn.mk committed (some s)).view = s := rfl

@[simp] theorem write_mk_some (committed s s' : σ) : (Conn.mk committed (some s)).write s' = ⟨committed, some s'⟩ := rfl

@[simp] theorem rollback_txn (c : Conn σ) : c.rollback.2.txn = none := by
  unfold rollback
  split
  · rfl
  · next h => exact h

@[simp] theorem rollback_committed (c : Conn σ) : c.rollback.2.committed = c.committed := by
  unfold rollback
  split <;> rfl

@[simp] theorem fail_committed (c : Conn σ) (fault : Fault) : (c.fail fault).committed = c.committed := by
  unfold fail
  split <;> rfl

section

variable (wrap : String → ε) (committed : σ)

theorem query_txn (s : σ) (f : σ → Except ε α) :
    (Conn.mk committed (some s)).query wrap none f = (f s, ⟨committed, some s⟩) := rfl

theorem execute_txn {s s' : σ} {f : σ → Except ε σ} (h : f s = .ok s') :
    (Conn.mk committed (some s)).execute wrap none f = (.ok (), ⟨committed, some s'⟩) := by
  simp [execute, h]

/-- A write inside a transaction goes to its view, or fails and leaves the committed state alone. -/
theorem execute_cases (s : σ) (fault : Option Fault) (f : σ → Except ε σ) :
    (∃ s', f s = .ok s' ∧ (Conn.mk committed (some s)).execute wrap fault f = (.ok (), ⟨committed, some s'⟩)) ∨
      ∃ e c, (Conn.mk committed (some s)).execute wrap fault f = (.error e, c) ∧ c.committed = committed := by
  cases fault with
  | some fault => exact .inr ⟨_, _, rfl, fail_committed _ _⟩
  | none =>
    cases hf : f s with
    | ok s' => exact .inl ⟨s', rfl, execute_txn wrap committed hf⟩
    | error e => exact .inr ⟨e, ⟨committed, some s⟩, by simp [execute, hf], rfl⟩

end

theorem eq_of_rollback {c : Conn σ} {committed : σ} (h : c.committed = committed) :
    c.rollback.2 = ⟨committed, none⟩ := by
  rw [← h, ← c.rollback_committed, ← c.rollback_txn]

theorem commit_cases (committed s : σ) (fault : Option Fault) :
    (Conn.mk committed (some s)).commit fault = (.ok (), ⟨s, none⟩) ∨
      ∃ message c, (Conn.mk committed (some s)).commit fault = (.error message, c) ∧
        c.committed = committed := by
  cases fault with
  | none => exact .inl rfl
  | some fault => exact .inr ⟨_, _, rfl, fail_committed _ _⟩

/-- Inside a transaction: success is the statements' composition on its view, and failure leaves the
committed state alone. -/
theorem runStatements_spec (faults : Nat → Option Fault) (n : Nat) (committed s : σ) (statements : List (σ → σ)) :
    runStatements faults n ⟨committed, some s⟩ statements = (.ok (), ⟨committed, some (applyAll statements s)⟩) ∨
      ∃ message c, runStatements faults n ⟨committed, some s⟩ statements = (.error message, c) ∧
        c.committed = committed := by
  induction statements generalizing n s with
  | nil => exact .inl rfl
  | cons statement rest ih =>
    unfold runStatements
    cases faults n with
    | some fault => exact .inr ⟨_, _, rfl, fail_committed _ _⟩
    | none => exact ih (n + 1) (statement s)

theorem runStatements_ok (faults : Nat → Option Fault) (h : ∀ n, faults n = none) (n : Nat)
    (committed s : σ) (statements : List (σ → σ)) : runStatements faults n ⟨committed, some s⟩ statements =
      (.ok (), ⟨committed, some (applyAll statements s)⟩) := by
  induction statements generalizing n s with
  | nil => rfl
  | cons statement rest ih =>
    unfold runStatements
    rw [h n]
    exact ih (n + 1) (statement s)

/-- A transaction that cannot begin changes nothing; one that begins is its body on a fresh view, with a
rollback behind an error. -/
theorem withImmediateTxn_cases (wrap : String → ε) {c : Conn σ} (hc : c.txn = none)
    (fault : Option String) (body : Conn σ → Except ε α × Conn σ) :
    (∃ message, withImmediateTxn wrap c fault body = (.error (wrap message), c)) ∨
      (∃ a c', body ⟨c.committed, some c.committed⟩ = (.ok a, c') ∧ withImmediateTxn wrap c fault body = (.ok a, c')) ∨
      ∃ e c', body ⟨c.committed, some c.committed⟩ = (.error e, c') ∧
        withImmediateTxn wrap c fault body = (.error e, c'.rollback.2) := by
  unfold withImmediateTxn beginImmediate
  cases fault with
  | some message => exact .inl ⟨message, rfl⟩
  | none =>
    rw [hc]
    simp only
    cases hbody : body ⟨c.committed, some c.committed⟩ with
    | mk result c' =>
      cases result with
      | ok a => exact .inr (.inl ⟨a, c', rfl, rfl⟩)
      | error e => exact .inr (.inr ⟨e, c', rfl, rfl⟩)

end Conn

end Rvc.Lib
