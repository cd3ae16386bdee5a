import Rvc.Doppelganger.ForwardWindow

/-!
# The signing gate over whole runs

`History` says what a run knows of a validator from the state it left it in: a pending one was
registered, and what is recorded as observed was observed, quietly; a safe one has its window behind it
or needed none. Every operation keeps it (`run_history`), and `gate_sound` reads off it what
`is_signing_enabled` means. `Detected` is final.
-/

namespace Rvc.Doppelganger

open List ForwardWindowMachine

/-! ### What a run says about a validator -/

def Op.registers (pubkey : PublicKey) : Op → Prop
  | .register pk _ _ => pk = pubkey
  | .registerForImport pk _ => pk = pubkey
  | _ => False

def Op.epoch : Op → Nat
  | .register _ epoch _ => epoch
  | .registerForImport _ epoch => epoch
  | .observeLiveness epoch _ => epoch
  | .tick epoch _ => epoch
  | .cancel _ => 0

def Unregistered (pubkey : PublicKey) (ops : List Op) : Prop :=
  ∀ before op after, ops = before ++ op :: after → op.registers pubkey → .cancel pubkey ∈ after

/-- `reg` is the registration of `pubkey` in force: nothing was in force before it, and it was not
cancelled since. -/
structure RegisteredAt (pubkey : PublicKey) (ops before : List Op) (reg : Op) (after : List Op) :
    Prop where
  split : ops = before ++ reg :: after
  registers : reg.registers pubkey
  unregistered : Unregistered pubkey before
  uncancelled : .cancel pubkey ∉ after

/-- The registration was one of the two that need no window. -/
def Bypasses (monitoringEpochs : Nat) (pubkey : PublicKey) (reg : Op) : Prop :=
  ∃ epoch prior, reg = .register pubkey epoch prior ∧
    (epoch = 0 ∨ shouldSkipRestartMonitoring epoch prior monitoringEpochs = true)

def Observed (pubkey : PublicKey) (epoch : Nat) (ops : List Op) : Prop :=
  ∃ samples, .observeLiveness epoch samples ∈ ops ∧ ∃ sample ∈ samples, sample.index = pubkeyHex pubkey

section

variable (monitoringEpochs : Nat) (hpos : 1 ≤ monitoringEpochs) (pubkey : PublicKey)

def statusAfter (ops : List Op) : ForwardWindowStatus :=
  ((ForwardWindowMachine.new monitoringEpochs hpos).run ops).status pubkey

/-- No observation of an epoch of the window, made while `pubkey` was pending, had it live. -/
def Quiet (before : List Op) (reg : Op) (after : List Op) : Prop :=
  ∀ early epoch samples late, after = early ++ .observeLiveness epoch samples :: late →
    reg.epoch ≤ epoch → epoch ≤ saturatingAdd reg.epoch monitoringEpochs →
    statusAfter monitoringEpochs hpos pubkey (before ++ reg :: early) = .pending →
    ∀ sample ∈ samples, sample.index = pubkeyHex pubkey → sample.isLive = false

/-- The window of `reg` was observed from end to end, quietly, and is over. -/
structure WindowPassed (before : List Op) (reg : Op) (after : List Op) : Prop where
  observed : ∀ epoch, reg.epoch ≤ epoch → epoch ≤ saturatingAdd reg.epoch monitoringEpochs →
    Observed pubkey epoch after
  quiet : Quiet monitoringEpochs hpos pubkey before reg after
  ended : ∃ epoch slot, .tick epoch slot ∈ after ∧
    (saturatingAdd reg.epoch monitoringEpochs < epoch ∨
      epoch = saturatingAdd reg.epoch monitoringEpochs ∧ slotsPerEpoch - 1 ≤ slot)

/-- What a run knows of `pubkey` from the state it left it in. -/
def History (ops : List Op) : Option ValidatorState → Prop
  | none => Unregistered pubkey ops
  | some .unmonitored => False
  | some (.pending startEpoch endEpoch observed) =>
      ∃ before reg after, RegisteredAt pubkey ops before reg after ∧ reg.epoch = startEpoch ∧
        endEpoch = saturatingAdd startEpoch monitoringEpochs ∧
        (∀ epoch ∈ observed, Observed pubkey epoch after) ∧
        Quiet monitoringEpochs hpos pubkey before reg after
  | some .safe =>
      ∃ before reg after, RegisteredAt pubkey ops before reg after ∧
        (Bypasses monitoringEpochs pubkey reg ∨
          WindowPassed monitoringEpochs hpos pubkey before reg after)
  | some .detected => True

end

/-! ### Extending a run by one operation -/

section

variable {monitoringEpochs : Nat} {hpos : 1 ≤ monitoringEpochs} {pubkey : PublicKey}
  {ops before after : List Op} {reg op : Op}

theorem concat_eq_split {α : Type} {xs early late : List α} {last x : α} (h : xs ++ [last] = early ++ x :: late) :
    (late = [] ∧ last = x ∧ xs = early) ∨ ∃ late', late = late' ++ [last] ∧ xs = early ++ x :: late' := by
  rcases eq_nil_or_concat late with rfl | ⟨late', last', rfl⟩
  · obtain ⟨hxs, hlast⟩ := append_inj' h rfl
    exact .inl ⟨rfl, singleton_inj.mp hlast, hxs⟩
  · rw [concat_eq_append, ← cons_append, ← append_assoc] at h
    obtain ⟨hxs, hlast⟩ := append_inj' h rfl
    obtain rfl := singleton_inj.mp hlast
    exact .inr ⟨late', concat_eq_append, hxs⟩

theorem unregistered_cancel (pubkey : PublicKey) (ops : List Op) : Unregistered pubkey (ops ++ [.cancel pubkey]) := by
  intro early x late h hx
  rcases concat_eq_split h with ⟨-, rfl, -⟩ | ⟨late', rfl, -⟩
  · cases hx
  · exact mem_append_right _ (mem_singleton.mpr rfl)

theorem Unregistered.extend (h : Unregistered pubkey ops) (hop : ¬ op.registers pubkey) :
    Unregistered pubkey (ops ++ [op]) := by
  intro early x late hsplit hx
  rcases concat_eq_split hsplit with ⟨-, rfl, -⟩ | ⟨late', rfl, hops⟩
  · exact absurd hx hop
  · exact mem_append_left _ (h early x late' hops hx)

theorem Unregistered.register (h : Unregistered pubkey ops) (hop : op.registers pubkey) :
    RegisteredAt pubkey (ops ++ [op]) ops op [] :=
  ⟨rfl, hop, h, not_mem_nil⟩

theorem RegisteredAt.extend (h : RegisteredAt pubkey ops before reg after) (op : Op) (hop : op ≠ .cancel pubkey) :
    RegisteredAt pubkey (ops ++ [op]) before reg (after ++ [op]) where
  split := by rw [h.split, append_assoc, cons_append]
  registers := h.registers
  unregistered := h.unregistered
  uncancelled := by
    rw [mem_append, mem_singleton, not_or]
    exact ⟨h.uncancelled, fun heq => hop heq.symm⟩

theorem Observed.extend {epoch : Nat} (h : Observed pubkey epoch ops) : Observed pubkey epoch (ops ++ [op]) := by
  obtain ⟨samples, hmem, hentry⟩ := h
  exact ⟨samples, mem_append_left _ hmem, hentry⟩

theorem Quiet.extend (hsplit : ops = before ++ reg :: after) (h : Quiet monitoringEpochs hpos pubkey before reg after)
    (hop : ∀ epoch samples, op = .observeLiveness epoch samples → reg.epoch ≤ epoch →
      epoch ≤ saturatingAdd reg.epoch monitoringEpochs → statusAfter monitoringEpochs hpos pubkey ops = .pending →
      ∀ sample ∈ samples, sample.index = pubkeyHex pubkey → sample.isLive = false) :
    Quiet monitoringEpochs hpos pubkey before reg (after ++ [op]) := by
  intro early epoch samples late hafter hstart hend hpending
  rcases concat_eq_split hafter with ⟨-, rfl, rfl⟩ | ⟨late', -, hearlier⟩
  · exact hop epoch samples rfl hstart hend (hsplit ▸ hpending)
  · exact h early epoch samples late' hearlier hstart hend hpending

def stateAfter (monitoringEpochs : Nat) (hpos : 1 ≤ monitoringEpochs) (pubkey : PublicKey)
    (ops : List Op) : Option ValidatorState :=
  ((ForwardWindowMachine.new monitoringEpochs hpos).run ops).states.lookup (pubkeyHex pubkey)

variable {state : Option ValidatorState}

theorem statusAfter_of_state (h : stateAfter monitoringEpochs hpos pubkey ops = state) :
    statusAfter monitoringEpochs hpos pubkey ops = state.elim .unmonitored statusOf := by
  unfold stateAfter at h
  rw [statusAfter, status, h]
  cases state <;> rfl

theorem History.extend (h : History monitoringEpochs hpos pubkey ops state)
    (hstate : stateAfter monitoringEpochs hpos pubkey ops = state) (op : Op) (hop : op ≠ .cancel pubkey)
    (hreg : state = none → ¬ op.registers pubkey) (hquiet : ∀ epoch samples, op = .observeLiveness epoch samples →
      (∃ s ∈ state, inWindow epoch s = true) →
      ∀ sample ∈ samples, sample.index = pubkeyHex pubkey → sample.isLive = false) :
    History monitoringEpochs hpos pubkey (ops ++ [op]) state := by
  have hstatus := statusAfter_of_state hstate
  match state, h with
  | none, h => exact Unregistered.extend h (hreg rfl)
  | some (.pending startEpoch endEpoch observed), ⟨before, reg, after, hat, hstart, hend, hobs, hq⟩ =>
    refine ⟨before, reg, after ++ [op], hat.extend op hop, hstart, hend,
      fun epoch hepoch => (hobs epoch hepoch).extend, hq.extend hat.split ?_⟩
    intro epoch samples hobserve hlow hhigh _
    refine hquiet epoch samples hobserve ⟨_, rfl, ?_⟩
    subst hstart hend
    simp only [inWindow, Bool.and_eq_true, decide_eq_true_eq]
    exact ⟨hlow, hhigh⟩
  | some .safe, ⟨before, reg, after, hat, hcleared⟩ =>
    refine ⟨before, reg, after ++ [op], hat.extend op hop, hcleared.imp_right fun hpassed => ?_⟩
    refine ⟨fun epoch hlow hhigh => (hpassed.observed epoch hlow hhigh).extend, ?_, ?_⟩
    · exact hpassed.quiet.extend hat.split fun _ _ _ _ _ hpending => by
        rw [hstatus] at hpending
        cases hpending
    · obtain ⟨epoch, slot, hmem, hover⟩ := hpassed.ended
      exact ⟨epoch, slot, mem_append_left _ hmem, hover⟩
  | some .detected, _ => trivial

theorem monitoringEpochs_step (m : ForwardWindowMachine) (op : Op) :
    (m.step op).monitoringEpochs = m.monitoringEpochs := by
  cases op with
  | register pk epoch prior =>
    simp only [step, register_eq]
    split <;> rfl
  | registerForImport pk epoch =>
    simp only [step, registerForImport]
    split <;> rfl
  | observeLiveness | tick | cancel => rfl

theorem monitoringEpochs_run (m : ForwardWindowMachine) (ops : List Op) :
    (m.run ops).monitoringEpochs = m.monitoringEpochs := by
  induction ops generalizing m with
  | nil => rfl
  | cons op ops ih => exact (ih (m.step op)).trans (monitoringEpochs_step m op)

theorem stateAfter_concat (ops : List Op) (op : Op) : stateAfter monitoringEpochs hpos pubkey (ops ++ [op]) =
      validatorStep monitoringEpochs pubkey op (stateAfter monitoringEpochs hpos pubkey ops) := by
  have hrun : (new monitoringEpochs hpos).run (ops ++ [op]) =
      ((new monitoringEpochs hpos).run ops).step op := by
    simp [run, foldl_append]
  have hepochs := monitoringEpochs_run (new monitoringEpochs hpos) ops
  rw [stateAfter, hrun, lookup_step, hepochs]
  rfl

/-! ### Whole runs -/

theorem History.opened (h : Unregistered pubkey ops) (hop : op.registers pubkey) :
    History monitoringEpochs hpos pubkey (ops ++ [op]) (some (openWindow monitoringEpochs op.epoch)) := by
  refine ⟨ops, op, [], h.register hop, rfl, rfl, fun epoch hepoch => ?_, ?_⟩
  · simp at hepoch
  · intro early epoch samples late hafter
    simp at hafter

/-- Nobody is ever left `Unmonitored`, so a key that may register was never registered or cancelled. -/
theorem History.unregistered (h : History monitoringEpochs hpos pubkey ops state)
    (hfree : ¬ ∃ s ∈ state, s ≠ ValidatorState.unmonitored) : Unregistered pubkey ops := by
  match state, h with
  | none, h => exact h
  | some .unmonitored, h => exact absurd h id
  | some (.pending _ _ _), _ | some .safe, _ | some .detected, _ => exact absurd ⟨_, rfl, nofun⟩ hfree

section

variable (h : History monitoringEpochs hpos pubkey ops state)
  (hstate : stateAfter monitoringEpochs hpos pubkey ops = state) (epoch : Nat)

include h hstate

theorem History.tick (slot : Nat) :
    History monitoringEpochs hpos pubkey (ops ++ [.tick epoch slot]) (state.map (tickState epoch slot)) := by
  have hkeep := h.extend hstate (.tick epoch slot) (by simp) (fun _ => id) (by simp)
  match state, h with
  | none, _ | some .safe, _ => exact hkeep
  | some .detected, _ => trivial
  | some (.pending startEpoch endEpoch observed), ⟨before, reg, after, hat, hstart, hend, hobs, hq⟩ =>
    rw [Option.map_some, tickState]
    split
    case isFalse => exact hkeep
    next hdone =>
      obtain ⟨hboundary, hall⟩ := (Bool.and_eq_true _ _).mp hdone
      subst hstart hend
      refine ⟨before, reg, after ++ [.tick epoch slot], hat.extend (.tick epoch slot) (by simp), .inr ⟨?_, ?_, ?_⟩⟩
      · intro e hlow hhigh
        exact (hobs e (of_decide_eq_true hall e (Finset.mem_Icc.mpr ⟨hlow, hhigh⟩))).extend
      · exact hq.extend hat.split (by simp)
      · refine ⟨epoch, slot, by simp, ?_⟩
        simpa [boundaryReached, or_comm] using hboundary

theorem History.observe (samples : List ValidatorLivenessData) :
    History monitoringEpochs hpos pubkey (ops ++ [.observeLiveness epoch samples])
      (validatorStep monitoringEpochs pubkey (.observeLiveness epoch samples) state) := by
  cases state with
  | none => exact h.extend hstate _ (by simp) (fun _ => id) (by simp)
  | some s =>
    rw [validatorStep, Option.map_some]
    by_cases hwindow : inWindow epoch s = true
    case neg =>
      rw [if_neg hwindow]
      refine h.extend hstate _ (by simp) (by simp) fun e samples' hop hin => ?_
      cases hop
      obtain ⟨s', hs', hin⟩ := hin
      cases hs'
      exact absurd hin hwindow
    rw [if_pos hwindow]
    cases hanswer : (response samples).lookup (pubkeyHex pubkey) with
    | none =>
      refine h.extend hstate _ (by simp) (by simp) fun e samples' hop _ sample hsample hkey => ?_
      cases hop
      exact absurd hkey (no_sample_of_response hanswer sample hsample)
    | some live =>
      cases live with
      | true => trivial
      | false =>
        obtain ⟨hentry, hnone⟩ := samples_of_response hanswer
        cases s with
        | unmonitored | safe | detected => cases hwindow
        | pending startEpoch endEpoch observed =>
          obtain ⟨before, reg, after, hat, hstart, hend, hobs, hq⟩ := h
          refine ⟨before, reg, after ++ [.observeLiveness epoch samples],
            hat.extend (.observeLiveness epoch samples) (by simp), hstart, hend, fun e he => ?_,
            hq.extend hat.split fun e samples' hop _ _ _ => by cases hop; exact hnone⟩
          rcases Finset.mem_insert.mp he with rfl | he
          · exact ⟨samples, by simp, hentry⟩
          · exact (hobs e he).extend

end

theorem run_history (monitoringEpochs : Nat) (hpos : 1 ≤ monitoringEpochs) (pubkey : PublicKey) (ops : List Op) :
    History monitoringEpochs hpos pubkey ops (stateAfter monitoringEpochs hpos pubkey ops) := by
  induction ops using List.reverseRecOn with
  | nil =>
    intro early x late h
    simp at h
  | append_singleton ops op ih =>
    rw [stateAfter_concat]
    generalize hstate : stateAfter monitoringEpochs hpos pubkey ops = state at ih
    cases op with
    | register pk epoch prior =>
      rw [validatorStep]
      split
      next hguard =>
        refine ih.extend hstate _ (by simp) (fun hnone hpk => ?_) (by simp)
        subst hnone
        simpa using hguard.resolve_left fun hne => hne hpk
      next hguard =>
        obtain ⟨hpk, hfree⟩ := not_or.mp hguard
        obtain rfl := not_not.mp hpk
        unfold registeredState
        split
        next hbypass =>
          exact ⟨ops, _, [], (ih.unregistered hfree).register rfl, .inl ⟨epoch, prior, rfl, hbypass⟩⟩
        next => exact History.opened (ih.unregistered hfree) rfl
    | registerForImport pk epoch =>
      rw [validatorStep]
      split
      next hguard =>
        refine ih.extend hstate _ (by simp) (fun hnone hpk => ?_) (by simp)
        subst hnone
        simpa using hguard.resolve_left fun hne => hne hpk
      next hguard =>
        obtain ⟨hpk, hfree⟩ := not_or.mp hguard
        obtain rfl := not_not.mp hpk
        exact History.opened (ih.unregistered hfree) rfl
    | observeLiveness epoch samples => exact ih.observe hstate epoch samples
    | tick epoch slot => exact ih.tick hstate epoch slot
    | cancel pk =>
      rw [validatorStep]
      split
      next hpk =>
        subst hpk
        exact unregistered_cancel pk ops
      next hpk =>
        refine ih.extend hstate _ (fun h => hpk ?_) (fun _ => id) (by simp)
        cases h
        rfl

theorem validatorStep_detected (op : Op) (hop : op ≠ .cancel pubkey) :
    validatorStep monitoringEpochs pubkey op (some .detected) = some .detected := by
  cases op with
  | register pk epoch prior | registerForImport pk epoch => exact if_pos (.inr ⟨_, rfl, nofun⟩)
  | observeLiveness epoch samples | tick epoch slot => rfl
  | cancel pk => exact if_neg fun h => hop (by rw [h])

theorem run_detected (m : ForwardWindowMachine) {ops : List Op} (hops : .cancel pubkey ∉ ops)
    (h : m.states.lookup (pubkeyHex pubkey) = some .detected) :
    (m.run ops).states.lookup (pubkeyHex pubkey) = some .detected := by
  induction ops generalizing m with
  | nil => exact h
  | cons op ops ih =>
    obtain ⟨hop, hrest⟩ := not_or.mp (mem_cons.not.mp hops)
    refine ih (m.step op) hrest ?_
    rw [lookup_step, h]
    exact validatorStep_detected op fun heq => hop heq.symm

end

theorem status_eq_safe {m : ForwardWindowMachine} {pubkey : PublicKey} :
    m.status pubkey = .safe ↔ m.states.lookup (pubkeyHex pubkey) = some .safe := by
  unfold status
  rcases m.states.lookup (pubkeyHex pubkey) with _ | _ | _ | _ | _ <;> simp [statusOf]

theorem status_eq_detected {m : ForwardWindowMachine} {pubkey : PublicKey} :
    m.status pubkey = .detected ↔ m.states.lookup (pubkeyHex pubkey) = some .detected := by
  unfold status
  rcases m.states.lookup (pubkeyHex pubkey) with _ | _ | _ | _ | _ <;> simp [statusOf]

/-- **The gate is sound over whole runs.** A validator that may sign is registered, and since the
registration in force either that was one of the two bypasses, or its whole window was observed, quietly,
and is over. And a detected validator stays detected and disabled until it is cancelled. -/
theorem gate_sound (monitoringEpochs : Nat) (hpos : 1 ≤ monitoringEpochs) (pubkey : PublicKey) (ops : List Op) :
    (((ForwardWindowMachine.new monitoringEpochs hpos).run ops).isSigningEnabled pubkey = true →
      ∃ before reg after, RegisteredAt pubkey ops before reg after ∧ (Bypasses monitoringEpochs pubkey reg ∨
          WindowPassed monitoringEpochs hpos pubkey before reg after)) ∧
    (((ForwardWindowMachine.new monitoringEpochs hpos).run ops).status pubkey = .detected →
      ∀ more, .cancel pubkey ∉ more →
        ((ForwardWindowMachine.new monitoringEpochs hpos).run (ops ++ more)).status pubkey = .detected ∧
        ((ForwardWindowMachine.new monitoringEpochs hpos).run (ops ++ more)).isSigningEnabled pubkey =
          false) := by
  constructor
  · intro henabled
    have hsafe := status_eq_safe.mp (of_decide_eq_true henabled)
    have hhistory := run_history monitoringEpochs hpos pubkey ops
    rw [stateAfter, hsafe] at hhistory
    exact hhistory
  · intro hdetected more hmore
    have hrun : (new monitoringEpochs hpos).run (ops ++ more) =
        ((new monitoringEpochs hpos).run ops).run more := foldl_append
    have hstill : ((new monitoringEpochs hpos).run (ops ++ more)).status pubkey =
        .detected := by
      rw [hrun, status_eq_detected]
      exact run_detected _ hmore (status_eq_detected.mp hdetected)
    refine ⟨hstill, ?_⟩
    rw [isSigningEnabled, hstill]
    rfl

def samplePubkey : PublicKey := ⟨List.replicate 48 1, by decide⟩

/-- A window of three epochs, each observed, and the tick that ends it. -/
def sampleOps : List Op :=
  [.register samplePubkey 5 none, .observeLiveness 5 [⟨pubkeyHex samplePubkey, false⟩],
    .observeLiveness 6 [⟨pubkeyHex samplePubkey, false⟩],
    .observeLiveness 7 [⟨pubkeyHex samplePubkey, false⟩],
    .tick 7 31]

theorem gate_sound_sample :
    ((ForwardWindowMachine.new 2 (by decide)).run sampleOps).isSigningEnabled samplePubkey = true ∧
      ∃ before reg after, RegisteredAt samplePubkey sampleOps before reg after ∧
        (Bypasses 2 samplePubkey reg ∨ WindowPassed 2 (by decide) samplePubkey before reg after) :=
  have henabled : ((ForwardWindowMachine.new 2 (by decide)).run sampleOps).isSigningEnabled samplePubkey = true := by
    decide +kernel
  ⟨henabled, (gate_sound 2 (by decide) samplePubkey sampleOps).1 henabled⟩

end Rvc.Doppelganger
