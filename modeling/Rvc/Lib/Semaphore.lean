import Mathlib.Algebra.BigOperators.Group.List.Basic
import Mathlib.Algebra.Ring.Nat

/-!
# A fair semaphore

Permits are given out in the order in which they were asked for: a request that does not fit waits, and all later
ones wait behind it. Permits that come back are assigned at once to the requests at the front that fit; an assigned
request keeps its permits until its owner picks them up or gives up. So the owner of a request that is not picked up
may be slow, but no permit is lost and none is given twice: what is available, assigned and held stays the total.
-/

namespace Rvc.Lib

open List

variable {α : Type}

/-! ### The first element with a property -/

def takeFirst (p : α → Bool) : List α → Option (α × List α)
  | [] => none
  | a :: l => if p a then some (a, l) else (takeFirst p l).map fun found => (found.1, a :: found.2)

theorem takeFirst_eq_some {p : α → Bool} {a : α} : ∀ {l rest : List α}, takeFirst p l = some (a, rest) →
    p a = true ∧ l.Perm (a :: rest)
  | b :: l, rest, h => by
    unfold takeFirst at h
    split_ifs at h with hb
    · cases h
      exact ⟨hb, .refl _⟩
    · obtain ⟨found, hfound, heq⟩ := Option.map_eq_some_iff.mp h
      cases heq
      obtain ⟨ha, hperm⟩ := takeFirst_eq_some hfound
      exact ⟨ha, (hperm.cons b).trans (.swap _ _ _)⟩

theorem exists_takeFirst {p : α → Bool} {a : α} (hp : p a = true) : ∀ {l : List α}, a ∈ l →
    ∃ found, takeFirst p l = some found
  | b :: l, ha => by
    unfold takeFirst
    split_ifs with hb
    · exact ⟨_, rfl⟩
    · have hl : a ∈ l := (List.mem_cons.mp ha).resolve_left fun heq => hb (heq ▸ hp)
      obtain ⟨found, hfound⟩ := exists_takeFirst hp hl
      exact ⟨_, by rw [hfound]; rfl⟩

/-! ### The semaphore -/

structure Waiter (α : Type) where
  who : α
  permits : Nat
  deriving DecidableEq

def permitsOf (waiters : List (Waiter α)) : Nat := (waiters.map Waiter.permits).sum

@[simp] theorem permitsOf_nil : permitsOf ([] : List (Waiter α)) = 0 := rfl

@[simp] theorem permitsOf_cons (w : Waiter α) (ws : List (Waiter α)) :
    permitsOf (w :: ws) = w.permits + permitsOf ws := rfl

@[simp] theorem permitsOf_append (ws ws' : List (Waiter α)) : permitsOf (ws ++ ws') = permitsOf ws + permitsOf ws' := by
  simp [permitsOf]

theorem permitsOf_perm {ws ws' : List (Waiter α)} (h : ws.Perm ws') : permitsOf ws = permitsOf ws' :=
  (h.map Waiter.permits).sum_eq

/-- Permits to be had, requests with permits of their own, and requests that wait for theirs, the oldest first. -/
structure Semaphore (α : Type) where
  available : Nat
  assigned : List (Waiter α)
  queue : List (Waiter α)
  deriving DecidableEq

namespace Semaphore

def new (permits : Nat) : Semaphore α := ⟨permits, [], []⟩

section

variable (s : Semaphore α)

def waiting : List (Waiter α) := s.assigned ++ s.queue

def handOut (available : Nat) (assigned : List (Waiter α)) : List (Waiter α) → Semaphore α
  | [] => ⟨available, assigned, []⟩
  | w :: queue =>
    if w.permits ≤ available then handOut (available - w.permits) (assigned ++ [w]) queue
    else ⟨available, assigned, w :: queue⟩

/-- Ask for permits: they are taken at once if nobody waits and they are there. -/
def acquire (w : Waiter α) : Bool × Semaphore α :=
  if s.queue = [] ∧ w.permits ≤ s.available then (true, { s with available := s.available - w.permits })
  else (false, { s with queue := s.queue ++ [w] })

def release (permits : Nat) : Semaphore α := handOut (s.available + permits) s.assigned s.queue

def pick? (p : α → Bool) : Option (Waiter α × Semaphore α) :=
  (takeFirst (fun w => p w.who) s.assigned).map fun found => (found.1, { s with assigned := found.2 })

def cancel? (p : α → Bool) : Option (Waiter α × Semaphore α) :=
  match takeFirst (fun w => p w.who) s.assigned with
  | some (w, assigned) => some (w, { s with assigned := assigned }.release w.permits)
  | none => (takeFirst (fun w => p w.who) s.queue).map fun found =>
      (found.1, handOut s.available s.assigned found.2)

end

variable {s s' : Semaphore α} {w : Waiter α} {p : α → Bool} {total held n : Nat}

/-! ### The requests -/

@[simp] theorem waiting_handOut (queue : List (Waiter α)) : ∀ (available : Nat) (assigned : List (Waiter α)),
    (handOut available assigned queue).waiting = assigned ++ queue := by
  induction queue with
  | nil => exact fun _ _ => rfl
  | cons w queue ih =>
    intro available assigned
    unfold handOut
    split_ifs
    · rw [ih, append_assoc, singleton_append]
    · rfl

@[simp] theorem waiting_release : (s.release n).waiting = s.waiting := waiting_handOut _ _ _

theorem acquire_eq_true (h : s.acquire w = (true, s')) :
    s.queue = [] ∧ w.permits ≤ s.available ∧ s' = { s with available := s.available - w.permits } := by
  unfold acquire at h
  split_ifs at h with hfree
  · cases h
    exact ⟨hfree.1, hfree.2, rfl⟩
  · cases h

theorem acquire_eq_false (h : s.acquire w = (false, s')) :
    ¬(s.queue = [] ∧ w.permits ≤ s.available) ∧ s' = { s with queue := s.queue ++ [w] } := by
  unfold acquire at h
  split_ifs at h with hfree
  · cases h
  · cases h
    exact ⟨hfree, rfl⟩

theorem waiting_of_acquire_true (h : s.acquire w = (true, s')) : s'.waiting = s.waiting := by
  obtain ⟨-, -, rfl⟩ := acquire_eq_true h
  rfl

theorem waiting_of_acquire_false (h : s.acquire w = (false, s')) : s'.waiting = s.waiting ++ [w] := by
  obtain ⟨-, rfl⟩ := acquire_eq_false h
  exact (append_assoc _ _ _).symm

theorem pick?_eq_some (h : s.pick? p = some (w, s')) :
    p w.who = true ∧ s.assigned.Perm (w :: s'.assigned) ∧ s'.queue = s.queue ∧ s'.available = s.available := by
  obtain ⟨found, hfound, heq⟩ := Option.map_eq_some_iff.mp h
  cases heq
  obtain ⟨hp, hperm⟩ := takeFirst_eq_some hfound
  exact ⟨hp, hperm, rfl, rfl⟩

theorem waiting_of_pick? (h : s.pick? p = some (w, s')) : s.waiting.Perm (w :: s'.waiting) := by
  obtain ⟨-, hperm, hqueue, -⟩ := pick?_eq_some h
  unfold waiting
  rw [hqueue]
  exact hperm.append_right _

theorem waiting_of_cancel? (h : s.cancel? p = some (w, s')) : s.waiting.Perm (w :: s'.waiting) := by
  unfold cancel? at h
  split at h
  · next hfound =>
    cases h
    rw [waiting_release]
    exact (takeFirst_eq_some hfound).2.append_right _
  · obtain ⟨found, hfound, heq⟩ := Option.map_eq_some_iff.mp h
    cases heq
    rw [waiting_handOut]
    exact ((takeFirst_eq_some hfound).2.append_left _).trans perm_middle

/-! ### No permit lost, none given twice -/

/-- Of `total` permits the owners hold `held`, and the front of the queue does not fit. -/
structure Sound (s : Semaphore α) (total held : Nat) : Prop where
  conserved : s.available + permitsOf s.assigned + held = total
  settled : ∀ w ∈ s.queue.head?, s.available < w.permits

theorem Sound.new (total : Nat) : Sound (Semaphore.new total : Semaphore α) total 0 := ⟨rfl, nofun⟩

theorem sound_handOut (queue : List (Waiter α)) : ∀ (available : Nat) (assigned : List (Waiter α)),
    available + permitsOf assigned + held = total → Sound (handOut available assigned queue) total held := by
  induction queue with
  | nil => exact fun _ _ h => ⟨h, nofun⟩
  | cons w queue ih =>
    intro available assigned h
    unfold handOut
    split_ifs with hfits
    · refine ih _ _ ?_
      simp only [permitsOf_append, permitsOf_cons, permitsOf_nil]
      omega
    · refine ⟨h, ?_⟩
      rintro _ ⟨⟩
      exact Nat.lt_of_not_le hfits

theorem Sound.release (h : Sound s total (held + n)) : Sound (s.release n) total held := by
  have hconserved := h.conserved
  exact sound_handOut _ _ _ (by omega)

section

variable (h : Sound s total held)

include h

theorem Sound.acquire_true (hacquire : s.acquire w = (true, s')) : Sound s' total (held + w.permits) := by
  obtain ⟨hqueue, hfits, rfl⟩ := acquire_eq_true hacquire
  have hconserved := h.conserved
  refine ⟨?_, ?_⟩
  · show s.available - w.permits + permitsOf s.assigned + (held + w.permits) = total
    omega
  · intro w' hw'
    rw [hqueue] at hw'
    cases hw'

theorem Sound.acquire_false (hacquire : s.acquire w = (false, s')) : Sound s' total held := by
  obtain ⟨hfree, rfl⟩ := acquire_eq_false hacquire
  refine ⟨h.conserved, fun w' hw' => ?_⟩
  cases hqueue : s.queue with
  | nil =>
    rw [hqueue] at hw'
    cases hw'
    exact Nat.lt_of_not_le fun hle => hfree ⟨hqueue, hle⟩
  | cons first rest =>
    rw [hqueue] at hw'
    cases hw'
    exact h.settled w' (by rw [hqueue]; rfl)

theorem Sound.pick (hpick : s.pick? p = some (w, s')) : Sound s' total (held + w.permits) := by
  obtain ⟨-, hperm, hqueue, havailable⟩ := pick?_eq_some hpick
  have hpermits := permitsOf_perm hperm
  rw [permitsOf_cons] at hpermits
  have hconserved := h.conserved
  refine ⟨by omega, ?_⟩
  rw [hqueue, havailable]
  exact h.settled

theorem Sound.cancel (hcancel : s.cancel? p = some (w, s')) : Sound s' total held := by
  have hconserved := h.conserved
  unfold cancel? at hcancel
  split at hcancel
  · next assigned hfound =>
    cases hcancel
    have hpermits := permitsOf_perm (takeFirst_eq_some hfound).2
    rw [permitsOf_cons] at hpermits
    exact sound_handOut _ _ _ (show s.available + w.permits + permitsOf assigned + held = total by omega)
  · obtain ⟨found, -, heq⟩ := Option.map_eq_some_iff.mp hcancel
    cases heq
    exact sound_handOut _ _ _ hconserved

theorem Sound.held_le : held ≤ total := h.conserved ▸ Nat.le_add_left _ _

end

/-! ### Progress -/

theorem Sound.exists_assigned (h : Sound s total 0) (hfits : ∀ w ∈ s.waiting, w.permits ≤ total)
    (hne : s.waiting ≠ []) :
    s.assigned ≠ [] := by
  intro hassigned
  have havailable := h.conserved
  rw [hassigned, permitsOf_nil] at havailable
  cases hqueue : s.queue with
  | nil => exact hne (by rw [waiting, hassigned, hqueue]; rfl)
  | cons w rest =>
    have hlt := h.settled w (by rw [hqueue]; rfl)
    have hle := hfits w (mem_append_right _ (by rw [hqueue]; exact .head _))
    omega

theorem Sound.acquire_of_waiting_eq_nil (h : Sound s total 0) (w : Waiter α) (hnone : s.waiting = [])
    (hfits : w.permits ≤ total) : ∃ s', s.acquire w = (true, s') := by
  obtain ⟨hassigned, hqueue⟩ := append_eq_nil_iff.mp hnone
  have havailable := h.conserved
  rw [hassigned, permitsOf_nil] at havailable
  exact ⟨_, if_pos ⟨hqueue, by omega⟩⟩

theorem exists_pick? (p : α → Bool) (hmem : w ∈ s.assigned) (hp : p w.who = true) :
    ∃ found, s.pick? p = some found := by
  obtain ⟨found, hfound⟩ := exists_takeFirst (p := fun w => p w.who) hp hmem
  exact ⟨_, by rw [pick?, hfound]; rfl⟩

end Semaphore

end Rvc.Lib
