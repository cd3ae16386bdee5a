import Rvc.Lib.Ownership
import Rvc.Slashing.GroupCommit

/-!
# The queue in front of the group commit

Any number of threads push reserves onto `pending`; the one that finds `leader_active` unset leads: it
takes `flush_lock` and drains batches until it sees the queue empty. The step relation interleaves the
threads at every lock operation. `pending` and `leader_active` are only touched with the mutex of
`pending` held, so each critical section is one step from its lock to its unlock; the leader's last one,
which looks at the queue and then clears the flag, is kept in two.

`reachable_inv` is the invariant over every run. `no_stranded_reserve` reads off it that a waiting
reserve always has a leader, and `queue_refines_sequential` that at every point of a run, however the
threads interleave, what is committed is what the first reserves pushed, one at a time, would have left.
-/

namespace Rvc.Slashing

open Rvc.Lib Function Option List

/-! ### Threads -/

/-- `GroupCommitConfig`; of `wait_to_fill` only whether it is zero matters. -/
structure GroupCommitConfig where
  batchSize : Nat
  waitToFill : Bool
  deriving DecidableEq

def GroupCommitConfig.sanitized (cfg : GroupCommitConfig) : GroupCommitConfig :=
  { cfg with batchSize := max cfg.batchSize 1 }

/-- Where a thread is in `enqueue_and_wait` and `lead_flush`. -/
inductive Phase where
  | idle
  | pushing (item : QueuedReserve)
  | claimed
  | leading
  | draining (cfg : GroupCommitConfig)
  | drainLocked (cfg : GroupCommitConfig)
  | filling (cfg : GroupCommitConfig)
  | woken (cfg : GroupCommitConfig) (timedOut : Bool)
  | committing (batch : List QueuedReserve)
  | checking
  | checkLocked
  | clearing
  | leaving
  | waiting

def Phase.holdsPending : Phase → Bool
  | .pushing _ | .drainLocked _ | .woken _ _ | .checkLocked | .clearing => true
  | _ => false

def Phase.holdsFlush : Phase → Bool
  | .leading | .draining _ | .drainLocked _ | .filling _ | .woken _ _ | .committing _ | .checking
  | .checkLocked | .clearing | .leaving => true
  | _ => false

def Phase.leads : Phase → Bool
  | .claimed | .leading | .draining _ | .drainLocked _ | .filling _ | .woken _ _ | .committing _
  | .checking | .checkLocked | .clearing => true
  | _ => false

def Phase.drains : Phase → Bool
  | .draining _ | .drainLocked _ | .filling _ | .woken _ _ => true
  | _ => false

/-- The batch a thread has taken out of the queue and not yet committed. -/
def Phase.batch : Phase → List QueuedReserve
  | .committing batch => batch
  | _ => []

/-- The shared state, the threads, the connection, and three logs that only the proofs read. -/
structure QueueState (τ : Type) where
  pending : List QueuedReserve
  pendingLock : Option τ
  leaderActive : Bool
  flushLock : Option τ
  config : GroupCommitConfig
  conn : Conn Tables
  phase : τ → Phase
  pushed : List QueuedReserve
  drained : List QueuedReserve
  batches : List (BatchFaults × List QueuedReserve)

section

variable {τ : Type} [DecidableEq τ] (db : SlashingDb)

def QueueState.init (τ : Type) (cfg : GroupCommitConfig) (t : Tables) : QueueState τ :=
  ⟨[], none, false, none, cfg, ⟨t, none⟩, fun _ => .idle, [], [], []⟩

section

variable (s : QueueState τ) (i : τ) (p : Phase)

def QueueState.move : QueueState τ :=
  { s with phase := update s.phase i p }

/-- `push_pending`, under the guard: push, and claim the flag. -/
def QueueState.pushPending (item : QueuedReserve) : QueueState τ :=
  { s with
    pending := s.pending ++ [item]
    pushed := s.pushed ++ [item]
    leaderActive := true
    pendingLock := none
    phase := update s.phase i (if s.leaderActive then .waiting else .claimed) }

/-- The tail of `drain_batch`: take up to `batch_size` and release the queue. An empty batch sends the
leader to look again. -/
def QueueState.takeBatch (cfg : GroupCommitConfig) : QueueState τ :=
  let n := min s.pending.length (max cfg.batchSize 1)
  { s with
    pending := s.pending.drop n
    drained := s.drained ++ s.pending.take n
    pendingLock := none
    phase := update s.phase i (if (s.pending.take n).isEmpty then .checking else .committing (s.pending.take n)) }

def QueueState.unlockPending : QueueState τ :=
  { s with pendingLock := none, phase := update s.phase i p }

/-- `drain_batch` once it has the queue: nothing there, wait for more, or take. -/
def QueueState.drainBatch (cfg : GroupCommitConfig) : QueueState τ :=
  if s.pending.isEmpty then
    s.unlockPending i .checking
  else if s.pending.length < max cfg.batchSize 1 && cfg.waitToFill then
    s.unlockPending i (.filling cfg)
  else
    s.takeBatch i cfg

/-- `drain_batch` back from a wait: wait on while the batch is short and the time is not up. -/
def QueueState.drainWoken (cfg : GroupCommitConfig) (timedOut : Bool) : QueueState τ :=
  if s.pending.length < max cfg.batchSize 1 && !timedOut then
    s.unlockPending i (.filling cfg)
  else
    s.takeBatch i cfg

end

inductive Step (s : QueueState τ) : QueueState τ → Prop
  | lockPush (i : τ) (item : QueuedReserve) (hphase : s.phase i = .idle) (hfree : s.pendingLock = none) :
      Step s { s with pendingLock := some i, phase := update s.phase i (.pushing item) }
  | push (i : τ) {item : QueuedReserve} (hphase : s.phase i = .pushing item) : Step s (s.pushPending i item)
  | lockFlush (i : τ) (hphase : s.phase i = .claimed) (hfree : s.flushLock = none) :
      Step s { s with flushLock := some i, phase := update s.phase i .leading }
  | readConfig (i : τ) (hphase : s.phase i = .leading) : Step s (s.move i (.draining s.config))
  | lockDrain (i : τ) {cfg : GroupCommitConfig} (hphase : s.phase i = .draining cfg) (hfree : s.pendingLock = none) :
      Step s { s with pendingLock := some i, phase := update s.phase i (.drainLocked cfg) }
  | drain (i : τ) {cfg : GroupCommitConfig} (hphase : s.phase i = .drainLocked cfg) : Step s (s.drainBatch i cfg)
  | wake (i : τ) {cfg : GroupCommitConfig} (timedOut : Bool) (hphase : s.phase i = .filling cfg)
      (hfree : s.pendingLock = none) :
      Step s { s with pendingLock := some i, phase := update s.phase i (.woken cfg timedOut) }
  | drainWoken (i : τ) {cfg : GroupCommitConfig} {timedOut : Bool}
      (hphase : s.phase i = .woken cfg timedOut) : Step s (s.drainWoken i cfg timedOut)
  | commit (i : τ) {batch : List QueuedReserve} (faults : BatchFaults) (hphase : s.phase i = .committing batch) :
      Step s { s with
        conn := (commitBatch db faults batch s.conn).conn
        batches := s.batches ++ [(faults, batch)]
        phase := update s.phase i .leading }
  | lockCheck (i : τ) (hphase : s.phase i = .checking) (hfree : s.pendingLock = none) :
      Step s { s with pendingLock := some i, phase := update s.phase i .checkLocked }
  | seeEmpty (i : τ) (hphase : s.phase i = .checkLocked) (hempty : s.pending = []) : Step s (s.move i .clearing)
  | seeMore (i : τ) (hphase : s.phase i = .checkLocked) (hmore : s.pending ≠ []) : Step s (s.unlockPending i .leading)
  | clear (i : τ) (hphase : s.phase i = .clearing) : Step s { s with
        leaderActive := false, pendingLock := none, phase := update s.phase i .leaving }
  | leave (i : τ) (hphase : s.phase i = .leaving) :
      Step s { s with flushLock := none, phase := update s.phase i .waiting }
  /-- Answered; nothing below depends on how long the thread waits. -/
  | recv (i : τ) (hphase : s.phase i = .waiting) : Step s (s.move i .idle)
  | setGroupCommit (cfg : GroupCommitConfig) : Step s { s with config := cfg.sanitized }

/-! ### The invariant -/

structure QueueInv (t : Tables) (s : QueueState τ) : Prop where
  pendingLock : Owns Phase.holdsPending s.phase s.pendingLock
  flushLock : Owns Phase.holdsFlush s.phase s.flushLock
  leader : ∃ leader, Owns Phase.leads s.phase leader ∧ s.leaderActive = leader.isSome
  unled : s.leaderActive = false → s.pending = []
  clearing : ∀ i, s.phase i = .clearing → s.pending = []
  fifo : s.pushed = s.drained ++ s.pending
  /-- What was drained is committed, except for the batch of the thread that holds `flush_lock`. -/
  inFlight : s.drained = s.batches.flatMap (·.2) ++ (s.flushLock.elim [] fun i => (s.phase i).batch)
  conn : s.conn = (runBatches db ⟨t, none⟩ s.batches).2

variable {db} {t : Tables} {s s' : QueueState τ}

omit [DecidableEq τ] in
theorem QueueInv.init (cfg : GroupCommitConfig) (t : Tables) : QueueInv db t (QueueState.init τ cfg t) where
  pendingLock := .of_none fun _ => rfl
  flushLock := .of_none fun _ => rfl
  leader := ⟨none, .of_none fun _ => rfl, rfl⟩
  unled _ := rfl
  clearing _ h := by cases h
  fifo := rfl
  inFlight := rfl
  conn := rfl

variable {i : τ}

section

variable {phase : τ → Phase} {p q : Phase}

theorem batch_update (hi : phase i = p) (hpq : q.batch = p.batch) (j : τ) :
    (update phase i q j).batch = (phase j).batch :=
  (forall_update_iff phase fun j phase' => phase'.batch = (phase j).batch).mpr
    ⟨hpq.trans (congrArg _ hi.symm), fun _ _ => rfl⟩ j

theorem clearing_update {pending : List QueuedReserve} (h : ∀ j, phase j = .clearing → pending = [])
    (hq : q = .clearing → pending = []) (j : τ) : update phase i q j = .clearing → pending = [] :=
  (forall_update_iff phase fun _ phase => phase = .clearing → pending = []).mpr ⟨hq, fun j _ => h j⟩ j

end

theorem QueueInv.leader_move (h : QueueInv db t s) {p q : Phase} (hi : s.phase i = p) (hleads : q.leads = p.leads) :
    ∃ leader, Owns Phase.leads (update s.phase i q) leader ∧ s.leaderActive = leader.isSome := by
  obtain ⟨leader, howns, hactive⟩ := h.leader
  exact ⟨leader, howns.move hi hleads, hactive⟩

theorem QueueInv.switch (h : QueueInv db t s) {p q : Phase} (hi : s.phase i = p) {lock : Option τ}
    (hlock : Owns Phase.holdsPending (update s.phase i q) lock)
    (hflush : q.holdsFlush = p.holdsFlush) (hleads : q.leads = p.leads) (hbatch : q.batch = p.batch)
    (hclear : q = .clearing → s.pending = []) :
    QueueInv db t { s with pendingLock := lock, phase := update s.phase i q } where
  pendingLock := hlock
  flushLock := h.flushLock.move hi hflush
  leader := h.leader_move hi hleads
  unled := h.unled
  clearing := clearing_update h.clearing hclear
  fifo := h.fifo
  inFlight := by
    simp only [batch_update hi hbatch]
    exact h.inFlight
  conn := h.conn

theorem QueueInv.lock (h : QueueInv db t s) {q : Phase} (hfree : s.pendingLock = none) (hq : q.holdsPending = true) :
    Owns Phase.holdsPending (update s.phase i q) (some i) := by
  have howns := h.pendingLock
  rw [hfree] at howns
  exact howns.acquire hq

open QueueState

theorem QueueInv.pushPending (h : QueueInv db t s) {item : QueuedReserve}
    (hi : s.phase i = .pushing item) : QueueInv db t (s.pushPending i item) := by
  -- the queue is locked by the pusher, so no leader is between its look and its clearing
  have hclear : ∀ j, s.phase j ≠ .clearing := by
    intro j hj
    have : j = i := h.pendingLock.unique (by rw [hj]; rfl) (by rw [hi]; rfl)
    rw [this, hi] at hj
    cases hj
  have hfifo : s.pushed ++ [item] = s.drained ++ (s.pending ++ [item]) := by rw [h.fifo, append_assoc]
  cases hflag : s.leaderActive with
  | true =>
    rw [QueueState.pushPending, hflag, if_pos rfl]
    refine ⟨h.pendingLock.release hi rfl rfl, h.flushLock.move hi rfl, hflag ▸ h.leader_move hi rfl, nofun,
      clearing_update (fun j hj => absurd hj (hclear j)) nofun, hfifo, ?_, h.conn⟩
    simp only [batch_update (q := .waiting) hi rfl]
    exact h.inFlight
  | false =>
    -- nobody leads, so the pusher claims
    obtain ⟨leader, howns, hactive⟩ := h.leader
    rw [QueueState.pushPending, hflag, if_neg nofun]
    rw [hflag] at hactive
    obtain rfl := not_isSome_iff_eq_none.mp (Bool.eq_false_iff.mp hactive.symm)
    refine ⟨h.pendingLock.release hi rfl rfl, h.flushLock.move hi rfl, ⟨some i, howns.acquire rfl, rfl⟩,
      nofun, clearing_update (fun j hj => absurd hj (hclear j)) nofun, hfifo, ?_, h.conn⟩
    simp only [batch_update (q := .claimed) hi rfl]
    exact h.inFlight

def afterDrain (batch : List QueuedReserve) : Phase :=
  if batch.isEmpty then .checking else .committing batch

theorem afterDrain_spec (batch : List QueuedReserve) :
    (afterDrain batch).holdsPending = false ∧ (afterDrain batch).holdsFlush = true ∧
      (afterDrain batch).leads = true ∧ (afterDrain batch).batch = batch ∧
      afterDrain batch ≠ .clearing := by
  rcases batch with _ | ⟨item, rest⟩ <;> exact ⟨rfl, rfl, rfl, rfl, nofun⟩

theorem QueueInv.takeBatch (h : QueueInv db t s) {p : Phase} (cfg : GroupCommitConfig)
    (hi : s.phase i = p) (hpending : p.holdsPending = true) (hflush : p.holdsFlush = true)
    (hleads : p.leads = true) (hbatch : p.batch = []) : QueueInv db t (s.takeBatch i cfg) := by
  obtain ⟨hq₁, hq₂, hq₃, hq₄, hq₅⟩ :=
    afterDrain_spec (s.pending.take (min s.pending.length (max cfg.batchSize 1)))
  refine ⟨h.pendingLock.release hi hpending hq₁, h.flushLock.move hi (hq₂.trans hflush.symm),
    h.leader_move hi (hq₃.trans hleads.symm), ?_, ?_, ?_, ?_, h.conn⟩
  · intro hunled
    have : s.pending = [] := h.unled hunled
    simp [QueueState.takeBatch, this]
  · have hdrop : ∀ j, s.phase j = .clearing →
        s.pending.drop (min s.pending.length (max cfg.batchSize 1)) = [] := by
      intro j hj
      rw [h.clearing j hj, drop_nil]
    exact clearing_update hdrop fun hj => absurd hj hq₅
  · rw [QueueState.takeBatch, append_assoc, take_append_drop, h.fifo]
  · have hlock : s.flushLock = some i := (h.flushLock i).mp (hi ▸ hflush)
    have hdrained := h.inFlight
    rw [hlock, elim_some, hi, hbatch, append_nil] at hdrained
    simp only [QueueState.takeBatch, hlock, elim_some, update_self, ← hdrained]
    exact congrArg (s.drained ++ ·) hq₄.symm

theorem runBatches_concat (db : SlashingDb) (c : Conn Tables)
    (batches : List (BatchFaults × List QueuedReserve)) (faults : BatchFaults) (batch : List QueuedReserve) :
    (runBatches db c (batches ++ [(faults, batch)])).2 =
      (commitBatch db faults batch (runBatches db c batches).2).conn := by
  induction batches generalizing c with
  | nil => rfl
  | cons head rest ih => exact ih _

section

variable (h : QueueInv db t s)

include h

theorem QueueInv.commit {batch : List QueuedReserve} (faults : BatchFaults) (hi : s.phase i = .committing batch) :
    QueueInv db t { s with
      conn := (commitBatch db faults batch s.conn).conn
      batches := s.batches ++ [(faults, batch)]
      phase := update s.phase i .leading } := by
  have hlock : s.flushLock = some i := (h.flushLock i).mp (hi ▸ rfl)
  have hdrained := h.inFlight
  rw [hlock, elim_some, hi] at hdrained
  refine ⟨h.pendingLock.move hi rfl, h.flushLock.move hi rfl, h.leader_move hi rfl,
    h.unled, clearing_update h.clearing nofun, h.fifo, ?_, ?_⟩
  · rw [hdrained]
    simp [hlock, Phase.batch]
  · rw [runBatches_concat, ← h.conn]

theorem QueueInv.clear (hi : s.phase i = .clearing) : QueueInv db t { s with
      leaderActive := false, pendingLock := none, phase := update s.phase i .leaving } := by
  obtain ⟨leader, howns, -⟩ := h.leader
  refine ⟨h.pendingLock.release hi rfl rfl, h.flushLock.move hi rfl, ⟨none, howns.release hi rfl rfl, rfl⟩,
    fun _ => h.clearing i hi, clearing_update h.clearing nofun, h.fifo, ?_, h.conn⟩
  simp only [batch_update (q := .leaving) hi rfl]
  exact h.inFlight

theorem QueueInv.leave (hi : s.phase i = .leaving) :
    QueueInv db t { s with flushLock := none, phase := update s.phase i .waiting } := by
  have hlock : s.flushLock = some i := (h.flushLock i).mp (hi ▸ rfl)
  have hdrained := h.inFlight
  rw [hlock, elim_some, hi] at hdrained
  exact ⟨h.pendingLock.move hi rfl, h.flushLock.release hi rfl rfl, h.leader_move hi rfl,
    h.unled, clearing_update h.clearing nofun, h.fifo, hdrained, h.conn⟩

theorem QueueInv.lockFlush (hi : s.phase i = .claimed) (hfree : s.flushLock = none) :
    QueueInv db t { s with flushLock := some i, phase := update s.phase i .leading } := by
  have hflush := h.flushLock
  have hdrained := h.inFlight
  rw [hfree] at hflush hdrained
  refine ⟨h.pendingLock.move hi rfl, hflush.acquire rfl, h.leader_move hi rfl, h.unled,
    clearing_update h.clearing nofun, h.fifo, ?_, h.conn⟩
  rw [hdrained]
  simp [Phase.batch]

theorem QueueInv.step (hstep : Step db s s') : QueueInv db t s' := by
  cases hstep with
  | lockPush i item hi hfree => exact h.switch hi (h.lock hfree rfl) rfl rfl rfl nofun
  | push i hi => exact h.pushPending hi
  | lockFlush i hi hfree => exact h.lockFlush hi hfree
  | readConfig i hi => exact h.switch hi (h.pendingLock.move hi rfl) rfl rfl rfl nofun
  | lockDrain i hi hfree => exact h.switch hi (h.lock hfree rfl) rfl rfl rfl nofun
  | drain i hi =>
    unfold drainBatch
    split
    · exact h.switch hi (h.pendingLock.release hi rfl rfl) rfl rfl rfl nofun
    · split
      · exact h.switch hi (h.pendingLock.release hi rfl rfl) rfl rfl rfl nofun
      · exact h.takeBatch _ hi rfl rfl rfl rfl
  | wake i timedOut hi hfree => exact h.switch hi (h.lock hfree rfl) rfl rfl rfl nofun
  | drainWoken i hi =>
    unfold drainWoken
    split
    · exact h.switch hi (h.pendingLock.release hi rfl rfl) rfl rfl rfl nofun
    · exact h.takeBatch _ hi rfl rfl rfl rfl
  | commit i faults hi => exact h.commit faults hi
  | lockCheck i hi hfree => exact h.switch hi (h.lock hfree rfl) rfl rfl rfl nofun
  | seeEmpty i hi hempty => exact h.switch hi (h.pendingLock.move hi rfl) rfl rfl rfl fun _ => hempty
  | seeMore i hi hmore => exact h.switch hi (h.pendingLock.release hi rfl rfl) rfl rfl rfl nofun
  | clear i hi => exact h.clear hi
  | leave i hi => exact h.leave hi
  | recv i hi => exact h.switch hi (h.pendingLock.move hi rfl) rfl rfl rfl nofun
  | setGroupCommit cfg => exact { h with }

end

theorem reachable_inv {cfg : GroupCommitConfig}
    (h : Relation.ReflTransGen (Step db) (QueueState.init τ cfg t) s) : QueueInv db t s := by
  induction h with
  | refl => exact .init cfg t
  | tail _ hstep ih => exact ih.step hstep

/-! ### No reserve is stranded -/

/-- **No stranded reserve**: in every state of every interleaving a waiting reserve has a thread that
leads, at most one thread is in `drain_batch`, and what was pushed is, in order, what was drained and
what still waits. What was drained is, in order, what `commit_batch` was run on and the batch that the
holder of `flush_lock` has in hand, and the connection is where those runs left it. -/
theorem no_stranded_reserve {cfg : GroupCommitConfig}
    (h : Relation.ReflTransGen (Step db) (QueueState.init τ cfg t) s) :
    (s.pending ≠ [] → ∃ i, (s.phase i).leads = true) ∧
      (∀ i j, (s.phase i).drains = true → (s.phase j).drains = true → i = j) ∧
      s.pushed = s.drained ++ s.pending ∧
      s.drained = s.batches.flatMap (·.2) ++ (s.flushLock.elim [] fun i => (s.phase i).batch) ∧
      s.conn = (runBatches db ⟨t, none⟩ s.batches).2 := by
  have hinv := reachable_inv h
  refine ⟨fun hpending => ?_, fun i j hi hj => ?_, hinv.fifo, hinv.inFlight, hinv.conn⟩
  · obtain ⟨leader, howns, hactive⟩ := hinv.leader
    have hflag : s.leaderActive = true := by
      by_contra hoff
      exact hpending (hinv.unled (by simpa using hoff))
    obtain ⟨i, hi⟩ := isSome_iff_exists.mp (hactive ▸ hflag)
    exact ⟨i, (howns i).mpr hi⟩
  · have hflush : ∀ p : Phase, p.drains = true → p.holdsFlush = true := by
      rintro (_ | _) <;> simp [Phase.drains, Phase.holdsFlush]
    exact hinv.flushLock.unique (hflush _ hi) (hflush _ hj)

def onePushed : QueueState Bool :=
  QueueState.pushPending
    { QueueState.init Bool ⟨50, true⟩ Tables.empty with
      pendingLock := some true
      phase := update (fun _ => .idle) true (.pushing (sampleReserve 1 2 "r1")) }
    true (sampleReserve 1 2 "r1")

theorem onePushed_reachable :
    Relation.ReflTransGen (Step ⟨true, 0⟩) (QueueState.init Bool ⟨50, true⟩ Tables.empty) onePushed :=
  .tail (.tail .refl (.lockPush true (sampleReserve 1 2 "r1") rfl rfl)) (.push true rfl)

theorem no_stranded_reserve_onePushed : onePushed.pending ≠ [] ∧ (∃ i, (onePushed.phase i).leads = true) ∧
    onePushed.pushed = onePushed.drained ++ onePushed.pending ∧
      onePushed.drained = onePushed.batches.flatMap (·.2) := by
  obtain ⟨hled, -, hfifo, hdrained, -⟩ := no_stranded_reserve onePushed_reachable
  exact ⟨nofun, hled nofun, hfifo, hdrained⟩

/-! ### The run refines the reserves one at a time -/

/-- **The queue refines the reserves one at a time**: in every state of every interleaving in which nobody was
cancelled and no batch met a persistence error, the connection is where the reserves pushed first, executed in the
order in which they were pushed, would have left it. While no leader is at work, only what is pending is missing. -/
theorem queue_refines_sequential {cfg : GroupCommitConfig}
    (h : Relation.ReflTransGen (Step db) (QueueState.init τ cfg t) s) (hlive : ∀ item ∈ s.pushed, ¬ item.Cancelled)
    (hpersist : ∀ result ∈ (runBatches db ⟨t, none⟩ s.batches).1, result.persistErr = none) :
    ∃ committed waiting, s.pushed = committed ++ waiting ∧ (s.flushLock = none → waiting = s.pending) ∧
      s.conn = ⟨(reserveAll db t (committed.map (·.spec))).2, none⟩ := by
  have hinv := reachable_inv h
  have hpushed := hinv.fifo
  rw [hinv.inFlight, append_assoc] at hpushed
  refine ⟨_, _, hpushed, fun hidle => by rw [hidle]; rfl, ?_⟩
  obtain ⟨t', hconn, hcommitted⟩ := runBatches_committed hpersist
  have hreplies := hcommitted.eq_reserveAll fun item hitem =>
    hlive item (hpushed ▸ mem_append_left _ hitem)
  rw [hinv.conn, hconn, hreplies.2]

theorem oneCommitted_reachable : ∃ s : QueueState Bool,
    Relation.ReflTransGen (Step ⟨true, 0⟩) (QueueState.init Bool ⟨50, true⟩ Tables.empty) s ∧
      s.pushed = [sampleReserve 1 2 "r1"] ∧ s.batches = [(⟨none, none⟩, [sampleReserve 1 2 "r1"])] :=
  ⟨_, (((((((onePushed_reachable.tail (.lockFlush true rfl rfl)).tail (.readConfig true rfl)).tail
    (.lockDrain true rfl rfl)).tail (.drain true rfl)).tail (.wake true true rfl rfl)).tail
    (.drainWoken true rfl)).tail (.commit true ⟨none, none⟩ rfl)), rfl, rfl⟩

theorem queue_refines_sequential_oneCommitted : ∃ s : QueueState Bool, s.batches ≠ [] ∧
    ∃ committed waiting, s.pushed = committed ++ waiting ∧ (s.flushLock = none → waiting = s.pending) ∧
      s.conn = ⟨(reserveAll ⟨true, 0⟩ Tables.empty (committed.map (·.spec))).2, none⟩ := by
  obtain ⟨s, hreach, hpushed, hbatches⟩ := oneCommitted_reachable
  refine ⟨s, by simp [hbatches], queue_refines_sequential hreach ?_ ?_⟩
  · rw [hpushed]
    decide
  · rw [hbatches]
    decide +kernel

end

end Rvc.Slashing
