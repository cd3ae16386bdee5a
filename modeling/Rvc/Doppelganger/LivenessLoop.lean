import Rvc.Doppelganger.Gate
import Rvc.Doppelganger.Liveness

/-!
# The liveness loop

`LivenessObservationLoop::run`. Once a slot the loop queries the last `LIVENESS_LOOKBACK_EPOCHS` completed epochs
and ticks the machine. The machine waits for every epoch of a window, however long it takes; the loop asks for an
epoch only until the lookback has passed it. An epoch that got no answer in that time is never asked for again,
and a validator that misses it stays without permission to sign until it is cancelled and registered anew.
-/

namespace Rvc.Doppelganger

open Rvc.Lib Rvc.BnManager List

/-! ### The loop -/

def defaultMonitoringEpochs : Nat := 2

def livenessLookbackEpochs : Nat := defaultMonitoringEpochs + 2

def queryRange (currentEpoch : Nat) : List Nat :=
  List.range' (currentEpoch - livenessLookbackEpochs) (currentEpoch - (currentEpoch - livenessLookbackEpochs))

theorem mem_queryRange {epoch currentEpoch : Nat} :
    epoch ∈ queryRange currentEpoch ↔ currentEpoch ≤ epoch + livenessLookbackEpochs ∧ epoch < currentEpoch := by
  rw [queryRange, mem_range'_1]
  omega

/-- What the other tasks do to the machine: the loop is the only one that observes and ticks. -/
inductive Registration where
  | register (pubkey : PublicKey) (currentEpoch : Nat) (prior : Option Nat)
  | registerForImport (pubkey : PublicKey) (currentEpoch : Nat)
  | cancel (pubkey : PublicKey)
  deriving DecidableEq

def Registration.toOp : Registration → Op
  | .register pubkey currentEpoch prior => .register pubkey currentEpoch prior
  | .registerForImport pubkey currentEpoch => .registerForImport pubkey currentEpoch
  | .cancel pubkey => .cancel pubkey

def ForwardWindowMachine.runOthers (m : ForwardWindowMachine) (others : List Registration) : ForwardWindowMachine :=
  m.run (others.map (·.toOp))

/-- What an iteration meets. For each epoch it queries: what other tasks did before, the registry at that time
and what the nodes answer. -/
structure Iteration where
  currentEpoch : Nat
  slotInEpoch : Nat
  others : Nat → List Registration
  registry : Nat → PubkeyIndexRegistry
  clients : Nat → List (Client (List ValidatorLiveness))
  /-- What other tasks did between the last query and the tick. -/
  othersLast : List Registration

structure LoopState where
  machine : ForwardWindowMachine
  observedEpochs : Finset Nat
  hasPending : Bool

namespace LoopState

def start (machine : ForwardWindowMachine) : LoopState := ⟨machine, ∅, true⟩

def query (it : Iteration) (s : LoopState) (epoch : Nat) : LoopState :=
  let machine := s.machine.runOthers (it.others epoch)
  if !s.hasPending && decide (epoch ∈ s.observedEpochs) then
    { s with machine := machine }
  else
    match observeEpoch (it.registry epoch) (it.clients epoch) machine epoch with
    | (.ok true, machine) => { s with machine := machine, observedEpochs := insert epoch s.observedEpochs }
    | (_, machine) => { s with machine := machine }

def iterate (s : LoopState) (it : Iteration) : LoopState :=
  let s := if 0 < it.currentEpoch then (queryRange it.currentEpoch).foldl (query it) s else s
  let (statuses, machine) := (s.machine.runOthers it.othersLast).tick it.currentEpoch it.slotInEpoch
  { machine := machine
    hasPending := statuses.contains .pending
    observedEpochs :=
      if livenessLookbackEpochs + 4 < it.currentEpoch then
        s.observedEpochs.filter (it.currentEpoch - (livenessLookbackEpochs + 4) ≤ ·)
      else
        s.observedEpochs }

def run (s : LoopState) (its : List Iteration) : LoopState := its.foldl iterate s

end LoopState

/-! ### One validator -/

/-- What the answers for an epoch say of a validator: nothing, that it was live or that it was not. -/
def Iteration.answer (it : Iteration) (epoch : Nat) (pubkey : PublicKey) : Option Bool :=
  match postValidatorLivenessMerged (it.clients epoch) with
  | .ok data => (response (translate (it.registry epoch) data)).lookup (pubkeyHex pubkey)
  | .error _ => none

def Iteration.Spares (it : Iteration) (pubkey : PublicKey) : Prop :=
  (∀ epoch, .cancel pubkey ∉ it.others epoch) ∧ .cancel pubkey ∉ it.othersLast

section

variable {m : ForwardWindowMachine} {it : Iteration} {pubkey : PublicKey} {epoch : Nat} {s : LoopState}

/-- An epoch that is asked for: the state in its window takes the answer, and no answer changes nothing. -/
theorem lookup_observeEpoch :
    (observeEpoch (it.registry epoch) (it.clients epoch) m epoch).2.states.lookup (pubkeyHex pubkey) =
      (m.states.lookup (pubkeyHex pubkey)).map fun state =>
        if inWindow epoch state then answerState epoch (it.answer epoch pubkey) state else state := by
  have hnone : ∀ state, (if inWindow epoch state then answerState epoch none state else state) = state := by
    intro state
    split <;> rfl
  unfold observeEpoch Iteration.answer
  split
  next hempty =>
    have htranslate : ∀ data, translate (it.registry epoch) data = [] := by
      intro data
      have hlookup : ∀ index, (it.registry epoch).byIndex.lookup index = none := by
        intro index
        rw [AList.lookup_eq_none]
        intro hmem
        obtain ⟨entry, hentry, -⟩ := mem_map.mp hmem
        rw [isEmpty_iff.mp hempty] at hentry
        cases hentry
      simp [translate, hlookup]
    cases postValidatorLivenessMerged (it.clients epoch) with
    | error e => simp [hnone]
    | ok data => simp [htranslate, response, hnone]
  next =>
    cases postValidatorLivenessMerged (it.clients epoch) with
    | error e => simp [hnone]
    | ok data =>
      have hstep := lookup_step m pubkey (.observeLiveness epoch (translate (it.registry epoch) data))
      simp only [ForwardWindowMachine.step, validatorStep] at hstep
      dsimp only
      split <;> next heq => rw [heq] at hstep; exact hstep

variable {state : ValidatorState}

theorem lookup_runOthers {others : List Registration} (hothers : .cancel pubkey ∉ others)
    (hstate : m.states.lookup (pubkeyHex pubkey) = some state) (hne : state ≠ .unmonitored) :
    (m.runOthers others).states.lookup (pubkeyHex pubkey) = some state := by
  induction others generalizing m with
  | nil => exact hstate
  | cons other others ih =>
    obtain ⟨hother, hrest⟩ := not_or.mp (mem_cons.not.mp hothers)
    refine ih hrest ?_
    have hkept : ∃ s ∈ m.states.lookup (pubkeyHex pubkey), s ≠ .unmonitored := ⟨state, hstate, hne⟩
    rw [lookup_step]
    cases other with
    | register pk currentEpoch prior | registerForImport pk currentEpoch => exact (if_pos (.inr hkept)).trans hstate
    | cancel pk => exact (if_neg fun heq => hother (by rw [heq])).trans hstate

open LoopState

theorem query_hasPending : (s.query it epoch).hasPending = s.hasPending := by
  unfold query
  dsimp only
  split
  · rfl
  · split <;> rfl

theorem query_machine_of_pending (h : s.hasPending = true) : (s.query it epoch).machine =
      (observeEpoch (it.registry epoch) (it.clients epoch) (s.machine.runOthers (it.others epoch)) epoch).2 := by
  unfold query
  rw [if_neg (by simp [h])]
  split <;> next heq => rw [heq]

theorem query_machine_cases : (s.query it epoch).machine = s.machine.runOthers (it.others epoch) ∨
      (s.query it epoch).machine =
        (observeEpoch (it.registry epoch) (it.clients epoch) (s.machine.runOthers (it.others epoch)) epoch).2 := by
  unfold query
  dsimp only
  split
  · exact .inl rfl
  · right
    split <;> next heq => rw [heq]

theorem iterate_machine : (s.iterate it).machine =
    ((((queryRange it.currentEpoch).foldl (LoopState.query it) s).machine.runOthers it.othersLast).tick
      it.currentEpoch it.slotInEpoch).2 := by
  unfold LoopState.iterate
  split
  · rfl
  next hzero =>
    have hnil : queryRange it.currentEpoch = [] := by
      rw [queryRange, show it.currentEpoch = 0 by omega]
      rfl
    rw [hnil]
    rfl

theorem lookup_iterate (pubkey : PublicKey) : (s.iterate it).machine.states.lookup (pubkeyHex pubkey) =
    ((((queryRange it.currentEpoch).foldl (LoopState.query it) s).machine.runOthers it.othersLast).states.lookup
      (pubkeyHex pubkey)).map (tickState it.currentEpoch it.slotInEpoch) := by
  rw [iterate_machine]
  exact lookup_step _ pubkey (.tick it.currentEpoch it.slotInEpoch)

theorem iterate_hasPending {startEpoch endEpoch : Nat} {observed : Finset Nat}
    (h : (s.iterate it).machine.states.lookup (pubkeyHex pubkey) = some (.pending startEpoch endEpoch observed)) :
    (s.iterate it).hasPending = true := by
  unfold LoopState.iterate at h ⊢
  dsimp only [ForwardWindowMachine.tick] at h ⊢
  rw [contains_iff_mem, mem_map]
  exact ⟨_, AList.mem_lookup_iff.mp h, rfl⟩

variable {its : List Iteration}

theorem run_hasPending {m : ForwardWindowMachine} {startEpoch endEpoch : Nat}
    {observed : Finset Nat} (h : ((LoopState.start m).run its).machine.states.lookup (pubkeyHex pubkey) =
      some (.pending startEpoch endEpoch observed)) : ((LoopState.start m).run its).hasPending = true := by
  induction its using List.reverseRecOn with
  | nil => rfl
  | append_singleton its it _ =>
    rw [run, foldl_append] at h ⊢
    exact iterate_hasPending h

/-! ### An epoch that is missed -/

def Waits (epoch : Nat) : Option ValidatorState → Prop
  | some (.pending startEpoch endEpoch observed) => startEpoch ≤ epoch ∧ epoch ≤ endEpoch ∧ epoch ∉ observed
  | some .detected => True
  | _ => False

theorem Waits.registered {state : Option ValidatorState} (h : Waits epoch state) :
    ∃ s, state = some s ∧ s ≠ .unmonitored := by
  rcases state with _ | _ | _ | _ | _
  · cases h
  · cases h
  · exact ⟨_, rfl, by simp⟩
  · cases h
  · exact ⟨_, rfl, by simp⟩

theorem Waits.runOthers {others : List Registration} (h : Waits epoch (m.states.lookup (pubkeyHex pubkey)))
    (hothers : .cancel pubkey ∉ others) : Waits epoch ((m.runOthers others).states.lookup (pubkeyHex pubkey)) := by
  obtain ⟨state, hstate, hne⟩ := h.registered
  rwa [lookup_runOthers hothers hstate hne, ← hstate]

theorem Waits.answered {other : Nat} (h : Waits epoch (some state)) (hne : other ≠ epoch)
    (answer : Option Bool) : Waits epoch (some (answerState other answer state)) := by
  rcases answer with _ | _ | _
  · exact h
  · cases state with
    | pending startEpoch endEpoch observed =>
      obtain ⟨hstart, hend, hmissing⟩ := h
      refine ⟨hstart, hend, ?_⟩
      rw [Finset.mem_insert]
      exact not_or.mpr ⟨hne.symm, hmissing⟩
    | unmonitored | safe => cases h
    | detected => trivial
  · trivial

theorem Waits.ticked {currentEpoch slotInEpoch : Nat} (h : Waits epoch (some state)) :
    Waits epoch (some (tickState currentEpoch slotInEpoch state)) := by
  cases state with
  | pending startEpoch endEpoch observed =>
    obtain ⟨hstart, hend, hmissing⟩ := h
    have hopen : ¬ ∀ e ∈ Finset.Icc startEpoch endEpoch, e ∈ observed := fun hall =>
      hmissing (hall epoch (Finset.mem_Icc.mpr ⟨hstart, hend⟩))
    simp only [tickState, decide_eq_false hopen, Bool.and_false, Bool.false_eq_true, if_false]
    exact ⟨hstart, hend, hmissing⟩
  | unmonitored | safe => cases h
  | detected => trivial

section

variable (h : Waits epoch (s.machine.states.lookup (pubkeyHex pubkey)))

include h

theorem Waits.query {other : Nat} (hspares : it.Spares pubkey) (hne : other ≠ epoch) :
    Waits epoch ((s.query it other).machine.states.lookup (pubkeyHex pubkey)) := by
  have hothers := h.runOthers (hspares.1 other)
  rcases @query_machine_cases it other s with heq | heq
  · rwa [heq]
  · obtain ⟨state, hstate, -⟩ := hothers.registered
    rw [heq, lookup_observeEpoch, hstate, Option.map_some]
    rw [hstate] at hothers
    split
    · exact hothers.answered hne _
    · exact hothers

theorem Waits.queries {epochs : List Nat} (hspares : it.Spares pubkey) (hne : epoch ∉ epochs) :
    Waits epoch ((epochs.foldl (LoopState.query it) s).machine.states.lookup (pubkeyHex pubkey)) := by
  induction epochs generalizing s with
  | nil => exact h
  | cons other epochs ih =>
    obtain ⟨hother, hrest⟩ := not_or.mp (mem_cons.not.mp hne)
    exact ih (h.query hspares (Ne.symm hother)) hrest

theorem Waits.iterate (hspares : it.Spares pubkey) (hne : epoch ∉ queryRange it.currentEpoch) :
    Waits epoch ((s.iterate it).machine.states.lookup (pubkeyHex pubkey)) := by
  have hothers := (h.queries hspares hne).runOthers hspares.2
  obtain ⟨state, hstate, -⟩ := hothers.registered
  rw [lookup_iterate]
  rw [hstate] at hothers ⊢
  exact hothers.ticked

theorem Waits.run (hspares : ∀ it ∈ its, it.Spares pubkey) (hne : ∀ it ∈ its, epoch ∉ queryRange it.currentEpoch) :
    Waits epoch ((s.run its).machine.states.lookup (pubkeyHex pubkey)) := by
  induction its generalizing s with
  | nil => exact h
  | cons it its ih =>
    exact ih (h.iterate (hspares it mem_cons_self) (hne it mem_cons_self))
      (fun it hit => hspares it (mem_cons_of_mem _ hit)) fun it hit => hne it (mem_cons_of_mem _ hit)

end

theorem Waits.not_safe (h : Waits epoch (m.states.lookup (pubkeyHex pubkey))) : m.status pubkey ≠ .safe := by
  intro hsafe
  rw [status_eq_safe.mp hsafe] at h
  exact h

/-! ### Epochs that are answered -/

variable {startEpoch endEpoch : Nat} {observed : Finset Nat}

theorem query_quiet (hpending : s.hasPending = true) (hspares : it.Spares pubkey)
    (hstate : s.machine.states.lookup (pubkeyHex pubkey) = some (.pending startEpoch endEpoch observed))
    (hquiet : epoch ∈ Finset.Icc startEpoch endEpoch → it.answer epoch pubkey ≠ some true) :
    ∃ observed', (s.query it epoch).machine.states.lookup (pubkeyHex pubkey) =
        some (.pending startEpoch endEpoch observed') ∧ observed ⊆ observed' ∧
      (epoch ∈ Finset.Icc startEpoch endEpoch → it.answer epoch pubkey = some false → epoch ∈ observed') := by
  have hothers := lookup_runOthers (hspares.1 epoch) hstate (by simp)
  rw [query_machine_of_pending hpending, lookup_observeEpoch, hothers, Option.map_some]
  by_cases hwindow : epoch ∈ Finset.Icc startEpoch endEpoch
  · have hin : inWindow epoch (.pending startEpoch endEpoch observed) = true := by
      simpa [inWindow] using Finset.mem_Icc.mp hwindow
    rw [if_pos hin]
    cases hanswer : it.answer epoch pubkey with
    | none => exact ⟨observed, rfl, Finset.Subset.refl _, by simp⟩
    | some live =>
      cases live with
      | true => exact absurd hanswer (hquiet hwindow)
      | false =>
        exact ⟨insert epoch observed, rfl, Finset.subset_insert _ _, fun _ _ => Finset.mem_insert_self _ _⟩
  · have hout : ¬ inWindow epoch (.pending startEpoch endEpoch observed) = true := by
      simpa [inWindow] using hwindow
    rw [if_neg hout]
    exact ⟨observed, rfl, Finset.Subset.refl _, fun hin => absurd hin hwindow⟩

theorem queries_quiet {epochs : List Nat} (hpending : s.hasPending = true) (hspares : it.Spares pubkey)
    (hstate : s.machine.states.lookup (pubkeyHex pubkey) = some (.pending startEpoch endEpoch observed))
    (hquiet : ∀ e ∈ epochs, e ∈ Finset.Icc startEpoch endEpoch → it.answer e pubkey ≠ some true) :
    ∃ observed', (epochs.foldl (LoopState.query it) s).machine.states.lookup (pubkeyHex pubkey) =
        some (.pending startEpoch endEpoch observed') ∧ observed ⊆ observed' ∧
      ∀ e ∈ epochs, e ∈ Finset.Icc startEpoch endEpoch → it.answer e pubkey = some false → e ∈ observed' := by
  induction epochs generalizing s observed with
  | nil => exact ⟨observed, hstate, Finset.Subset.refl _, by simp⟩
  | cons first epochs ih =>
    obtain ⟨observed₁, hstate₁, hsub₁, hfirst⟩ :=
      query_quiet hpending hspares hstate (hquiet first mem_cons_self)
    obtain ⟨observed₂, hstate₂, hsub₂, hrest⟩ := ih (query_hasPending.trans hpending) hstate₁
      fun e he => hquiet e (mem_cons_of_mem _ he)
    refine ⟨observed₂, hstate₂, hsub₁.trans hsub₂, fun e he hwindow hanswer => ?_⟩
    rcases mem_cons.mp he with rfl | he
    · exact hsub₂ (hfirst hwindow hanswer)
    · exact hrest e he hwindow hanswer

theorem iterate_safe (hpending : s.hasPending = true) (hspares : it.Spares pubkey)
    (hstate : s.machine.states.lookup (pubkeyHex pubkey) = some (.pending startEpoch endEpoch observed))
    (hover : endEpoch < it.currentEpoch)
    (hquiet : ∀ e ∈ queryRange it.currentEpoch, e ∈ Finset.Icc startEpoch endEpoch → it.answer e pubkey ≠ some true)
    (hanswered : ∀ e ∈ Finset.Icc startEpoch endEpoch, e ∉ observed →
      e ∈ queryRange it.currentEpoch ∧ it.answer e pubkey = some false) :
    (s.iterate it).machine.status pubkey = .safe := by
  obtain ⟨observed', hstate', hsub, hrecorded⟩ := queries_quiet hpending hspares hstate hquiet
  have hothers := lookup_runOthers hspares.2 hstate' (by simp)
  have hfull : ∀ e ∈ Finset.Icc startEpoch endEpoch, e ∈ observed' := by
    intro e he
    by_cases hold : e ∈ observed
    · exact hsub hold
    · exact hrecorded e (hanswered e he hold).1 he (hanswered e he hold).2
  have hsafe : tickState it.currentEpoch it.slotInEpoch (.pending startEpoch endEpoch observed') = .safe := by
    simp only [tickState, decide_eq_true hfull, boundaryReached, decide_eq_true hover, Bool.or_true, Bool.and_true,
      if_true]
  rw [status_eq_safe, lookup_iterate, hothers, Option.map_some, hsafe]

/-! ### An outage -/

section

variable (hspares : it.Spares pubkey)
  (hstate : s.machine.states.lookup (pubkeyHex pubkey) = some (.pending startEpoch endEpoch observed))

include hspares hstate

theorem query_silent (hsilent : it.answer epoch pubkey = none) :
    (s.query it epoch).machine.states.lookup (pubkeyHex pubkey) = some (.pending startEpoch endEpoch observed) := by
  have hothers := lookup_runOthers (hspares.1 epoch) hstate (by simp)
  rcases @query_machine_cases it epoch s with heq | heq
  · rwa [heq]
  · rw [heq, lookup_observeEpoch, hothers, hsilent]
    simp [answerState]

theorem iterate_silent (hmissing : ¬ ∀ e ∈ Finset.Icc startEpoch endEpoch, e ∈ observed)
    (hsilent : ∀ e, it.answer e pubkey = none) :
    (s.iterate it).machine.states.lookup (pubkeyHex pubkey) = some (.pending startEpoch endEpoch observed) := by
  have hqueries : ∀ epochs : List Nat, (epochs.foldl (query it) s).machine.states.lookup
      (pubkeyHex pubkey) = some (.pending startEpoch endEpoch observed) := by
    intro epochs
    induction epochs using List.reverseRecOn with
    | nil => exact hstate
    | append_singleton epochs epoch ih =>
      rw [foldl_append]
      exact query_silent hspares ih (hsilent epoch)
  have hothers := lookup_runOthers hspares.2 (hqueries (queryRange it.currentEpoch)) (by simp)
  rw [lookup_iterate, hothers, Option.map_some, tickState, decide_eq_false hmissing, Bool.and_false,
    if_neg Bool.false_ne_true]

end

theorem run_silent (hspares : ∀ it ∈ its, it.Spares pubkey)
    (hstate : s.machine.states.lookup (pubkeyHex pubkey) = some (.pending startEpoch endEpoch observed))
    (hmissing : ¬ ∀ e ∈ Finset.Icc startEpoch endEpoch, e ∈ observed)
    (hsilent : ∀ it ∈ its, ∀ e, it.answer e pubkey = none) :
    (s.run its).machine.states.lookup (pubkeyHex pubkey) = some (.pending startEpoch endEpoch observed) := by
  induction its generalizing s with
  | nil => exact hstate
  | cons it its ih =>
    exact ih (fun it hit => hspares it (mem_cons_of_mem _ hit))
      (iterate_silent (hspares it mem_cons_self) hstate hmissing (hsilent it mem_cons_self))
      fun it hit => hsilent it (mem_cons_of_mem _ hit)

end

/-- **How long a missed epoch is asked for.** Of a validator that is pending after an iteration, a completed epoch
that is not yet observed is in the range of the next iteration exactly while the lookback has not passed it. As
long as all of them are, answers that do not have the validator live still make it `Safe`. Once one of them is
not, nothing makes it `Safe` any more, unless it is cancelled. -/
theorem missed_epoch_queried_iff (m : ForwardWindowMachine) (before : List Iteration) (next : Iteration)
    (after : List Iteration)
    (hclock : (before ++ next :: after).Pairwise fun earlier later => earlier.currentEpoch ≤ later.currentEpoch)
    {pubkey : PublicKey} {startEpoch endEpoch : Nat} {observed : Finset Nat}
    (hpending : ((LoopState.start m).run before).machine.states.lookup (pubkeyHex pubkey) =
      some (.pending startEpoch endEpoch observed)) :
    (∀ e ∈ Finset.Icc startEpoch endEpoch, e ∉ observed → e < next.currentEpoch →
      (e ∈ queryRange next.currentEpoch ↔ next.currentEpoch ≤ e + livenessLookbackEpochs)) ∧
    (next.Spares pubkey → endEpoch < next.currentEpoch →
      (∀ e ∈ queryRange next.currentEpoch, e ∈ Finset.Icc startEpoch endEpoch → next.answer e pubkey ≠ some true) →
      (∀ e ∈ Finset.Icc startEpoch endEpoch, e ∉ observed →
        e ∈ queryRange next.currentEpoch ∧ next.answer e pubkey = some false) →
      ((LoopState.start m).run (before ++ [next])).machine.status pubkey = .safe) ∧
    ∀ e ∈ Finset.Icc startEpoch endEpoch, e ∉ observed → next.currentEpoch > e + livenessLookbackEpochs →
      (∀ it ∈ next :: after, it.Spares pubkey) →
      ((LoopState.start m).run (before ++ next :: after)).machine.status pubkey ≠ .safe := by
  refine ⟨fun e _ _ hcompleted => ?_, fun hspares hover hquiet hanswered => ?_, fun e he hmissing hpassed hspares => ?_⟩
  · rw [mem_queryRange]
    exact and_iff_left hcompleted
  · rw [LoopState.run, foldl_append]
    exact iterate_safe (run_hasPending hpending) hspares hpending hover hquiet hanswered
  · obtain ⟨hstart, hend⟩ := Finset.mem_Icc.mp he
    have hwaits : Waits e (((LoopState.start m).run before).machine.states.lookup (pubkeyHex pubkey)) := by
      rw [hpending]
      exact ⟨hstart, hend, hmissing⟩
    -- the clock does not go back, so no later iteration asks for the epoch either
    have hlater : ∀ it ∈ next :: after, next.currentEpoch ≤ it.currentEpoch := by
      obtain ⟨hfirst, -⟩ := pairwise_cons.mp (pairwise_append.mp hclock).2.1
      exact forall_mem_cons.mpr ⟨le_rfl, hfirst⟩
    rw [LoopState.run, foldl_append]
    refine Waits.not_safe (hwaits.run hspares fun it hit => ?_)
    rw [mem_queryRange]
    have hle := hlater it hit
    omega

def silentSlot (slot : Nat) : Iteration where
  currentEpoch := slot / slotsPerEpoch
  slotInEpoch := slot % slotsPerEpoch
  others _ := []
  registry _ := PubkeyIndexRegistry.new.insert watchedPubkey "5"
  clients _ := [⟨"a", {.all}, .error .timeout⟩]
  othersLast := []

theorem silentSlot_spares (slot : Nat) (pubkey : PublicKey) : (silentSlot slot).Spares pubkey :=
  ⟨fun _ => not_mem_nil, not_mem_nil⟩

theorem silentSlot_answer (slot epoch : Nat) (pubkey : PublicKey) : (silentSlot slot).answer epoch pubkey = none := rfl

def watchingMachine : ForwardWindowMachine :=
  (ForwardWindowMachine.new defaultMonitoringEpochs (by decide)).registerForImport watchedPubkey 10

theorem watchingMachine_silent (slots : List Nat) :
    ((LoopState.start watchingMachine).run (slots.map silentSlot)).machine.states.lookup (pubkeyHex watchedPubkey) =
      some (.pending 10 12 ∅) := by
  refine run_silent (fun it hit => ?_) (AList.lookup_insert _) (by decide) fun it hit e => ?_
  · obtain ⟨slot, -, rfl⟩ := mem_map.mp hit
    exact silentSlot_spares slot watchedPubkey
  · obtain ⟨slot, -, rfl⟩ := mem_map.mp hit
    exact silentSlot_answer slot e watchedPubkey

/-- An outage of five epochs, from the registration in epoch 10 on: the validator is pending with epoch 10 not
observed, and the first slot of epoch 15 does not ask for epoch 10. -/
theorem outage_strands_validator :
    ((LoopState.start watchingMachine).run ((List.range' 320 160).map silentSlot)).machine.states.lookup
        (pubkeyHex watchedPubkey) = some (.pending 10 12 ∅) ∧
      (silentSlot 479).currentEpoch = 14 ∧ (silentSlot 480).currentEpoch = 15 ∧
      10 ∉ queryRange (silentSlot 480).currentEpoch :=
  ⟨watchingMachine_silent _, by decide, by decide, by decide⟩

def answeringSlot : Iteration where
  currentEpoch := 13
  slotInEpoch := 0
  others _ := []
  registry _ := PubkeyIndexRegistry.new.insert watchedPubkey "5"
  clients _ := [⟨"a", {.all}, .ok [⟨"5", false⟩]⟩]
  othersLast := []

/-- After an outage of three epochs the validator is safe; after one of five, whatever comes, it is not. -/
theorem missed_epoch_queried_iff_watching :
    ((LoopState.start watchingMachine).run ([320, 352, 384].map silentSlot ++ [answeringSlot])).machine.status
        watchedPubkey = .safe ∧
      ((LoopState.start watchingMachine).run ([320, 448].map silentSlot ++ [silentSlot 480])).machine.status
        watchedPubkey ≠ .safe := by
  have hanswer : ∀ e, answeringSlot.answer e watchedPubkey = some false := fun e => by
    show answeringSlot.answer 0 watchedPubkey = some false
    decide +kernel
  refine ⟨?_, ?_⟩
  · refine (missed_epoch_queried_iff watchingMachine ([320, 352, 384].map silentSlot) answeringSlot [] (by decide)
      (watchingMachine_silent _)).2.1 ⟨fun _ => not_mem_nil, not_mem_nil⟩ (by decide)
      (fun e _ _ => by simp [hanswer]) fun e he _ => ⟨?_, hanswer e⟩
    have hrange : ∀ e ∈ Finset.Icc 10 12, e ∈ queryRange 13 := by decide
    exact hrange e he
  · exact (missed_epoch_queried_iff watchingMachine ([320, 448].map silentSlot) (silentSlot 480) [] (by decide)
      (watchingMachine_silent _)).2.2 10 (by decide) (by decide) (by decide) fun it hit => by
        rw [mem_singleton.mp hit]
        exact silentSlot_spares 480 watchedPubkey

end Rvc.Doppelganger
