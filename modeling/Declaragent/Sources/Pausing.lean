import Declaragent.Events.CircuitBreaker
import Declaragent.Library.Transition
import Mathlib.Data.Finset.Erase
import Mathlib.Data.Finset.Insert

/-!
# Sources — pausing and resuming

A source is paused while it has a reason to be: an operator's, its circuit breaker's, or the
pressure on the bus.  A paused source is delivered nothing, and the breaker hears only of the
deliveries whose handlers are still in progress.

* `needed_record`: an outcome brings the breaker at most one success closer to being closed.
* `recovers_iff`: a source that only its breaker keeps paused can go on without an operator if and
  only if enough deliveries are still in progress.
-/

namespace Declaragent.Sources
open Transition Events

inductive PauseReason where
  | manual | breaker | busPressure
  deriving DecidableEq

inductive SourceHealthStatus where
  | starting | healthy | degraded | stopped
  deriving DecidableEq

/-- The part of a source that its pauses concern.  `pendingStarts` are the calls of `start` that
wait for the transport, and `inFlight` the deliveries whose outcome is not recorded yet. -/
structure Source where
  status : SourceHealthStatus := .starting
  pauseReasons : Finset PauseReason := ∅
  breaker : CircuitBreaker := {}
  pendingStarts : Nat := 0
  /-- The transition listeners of the breaker, the last of which `stop` can detach. -/
  breakerListeners : Nat := 0
  detachBreakerListener : Bool := false
  inFlight : Nat := 0

def Source.pauseFor (s : Source) (reason : PauseReason) : Source :=
  { s with
    pauseReasons := insert reason s.pauseReasons
    status := if s.pauseReasons = ∅ then .degraded else s.status }

def Source.resumeFrom (s : Source) (reason : PauseReason) : Source :=
  if reason ∈ s.pauseReasons then
    { s with
      pauseReasons := s.pauseReasons.erase reason
      status := if s.pauseReasons.erase reason = ∅ then .healthy else s.status }
  else s

/-- What a transition listener does. -/
def Source.onTransition (s : Source) : CircuitBreakerState → Source
  | .opened _ => s.pauseFor .breaker
  | .closed => s.resumeFrom .breaker
  | .halfOpen => s

/-- A second listener finds nothing left to do. -/
def Source.notify (s : Source) (moves : List CircuitBreakerState) : Source :=
  if s.breakerListeners = 0 then s else moves.foldl Source.onTransition s

/-- How `handleMessage` ends: an event was published, the handler threw, or the message was
dropped, of which the breaker hears nothing. -/
inductive Settled where
  | published | failed | dropped

inductive SourceLabel where
  | starts
  | started
  | stops
  | pauses
  | resumes
  | delivered
  | settled (outcome : Settled) (now : Int)
  | busHigh
  | busLow

/-- The breaker after the outcome, and the transitions it went through. -/
def recordOutcome (opts : CircuitBreakerOptions) (b : CircuitBreaker) (now : Int) :
    Settled → CircuitBreaker × List CircuitBreakerState
  | .published => b.record opts now true
  | .failed => b.record opts now false
  | .dropped => (b, [])

/-- `stop`, but for what the listeners hear of the breaker's reset. -/
def Source.halt (s : Source) : Source :=
  { s with
    status := .stopped
    breakerListeners := s.breakerListeners - if s.detachBreakerListener then 1 else 0
    detachBreakerListener := false
    pauseReasons := ∅
    breaker := s.breaker.reset.1 }

/-- An outcome is recorded. -/
def Source.record (s : Source) (b : CircuitBreaker) : Source :=
  { s with breaker := b, inFlight := s.inFlight - 1 }

/-- A handler ends. -/
def Source.settle (opts : CircuitBreakerOptions) (s : Source) (outcome : Settled) (now : Int) :
    Source :=
  (s.record (recordOutcome opts s.breaker now outcome).1).notify
    (recordOutcome opts s.breaker now outcome).2

def sourceStep (opts : CircuitBreakerOptions) (s : Source) : SourceLabel → Option Source
  | .starts => some { s with status := .starting, pendingStarts := s.pendingStarts + 1 }
  | .started =>
    if s.pendingStarts = 0 then none
    else
      some { s with
        status := .healthy
        pendingStarts := s.pendingStarts - 1
        breakerListeners := s.breakerListeners + 1
        detachBreakerListener := true }
  | .stops => some (s.halt.notify s.breaker.reset.2)
  | .pauses => some (s.pauseFor .manual)
  | .resumes => some (s.resumeFrom .manual)
  | .delivered =>
    if s.pauseReasons = ∅ then some { s with inFlight := s.inFlight + 1 } else none
  | .settled outcome now =>
    if s.inFlight = 0 then none else some (s.settle opts outcome now)
  | .busHigh => some (s.pauseFor .busPressure)
  | .busLow => some (s.resumeFrom .busPressure)

/-- A step that no operator takes, from the time `now` on. -/
def Unattended (now : Int) : SourceLabel → Prop
  | .starts | .stops | .pauses | .resumes => False
  | .settled _ t => now ≤ t
  | .started | .delivered | .busHigh | .busLow => True

/-- The cool-down is over. -/
def Cooled (opts : CircuitBreakerOptions) (b : CircuitBreaker) (now : Int) : Prop :=
  ∀ openedAt, b.state = .opened openedAt → (opts.resetTimeoutMs : Int) ≤ now - openedAt

def Resumed (s : Source) : Prop := s.pauseReasons = ∅ ∧ s.status = .healthy

/-! ### What the breaker does to the source -/

variable {opts : CircuitBreakerOptions} {s t : Source} {now : Int}

/-- A source that its breaker pauses listens to a breaker that is not closed. -/
structure PauseInv (opts : CircuitBreakerOptions) (s : Source) : Prop where
  sound : s.breaker.Sound opts
  waits : .breaker ∈ s.pauseReasons → s.breaker.state ≠ .closed ∧ s.breakerListeners ≠ 0

theorem moved_recordOutcome (opts : CircuitBreakerOptions) (b : CircuitBreaker) (now : Int)
    (outcome : Settled) : CircuitBreaker.Moved b (recordOutcome opts b now outcome) := by
  cases outcome with
  | published => exact CircuitBreaker.moved_record opts b now true
  | failed => exact CircuitBreaker.moved_record opts b now false
  | dropped => exact .stays [] nofun Iff.rfl

/-- An outcome takes one success at most off what the breaker needs. -/
theorem needed_recordOutcome {b : CircuitBreaker} (hb : b.Sound opts) (hclosed : b.state ≠ .closed)
    (now : Int) (outcome : Settled) :
    b.needed opts ≤ (recordOutcome opts b now outcome).1.needed opts + 1 := by
  cases outcome with
  | published => exact CircuitBreaker.needed_record hb hclosed now true
  | failed => exact CircuitBreaker.needed_record hb hclosed now false
  | dropped => exact Nat.le_succ _

theorem sound_recordOutcome {b : CircuitBreaker} (hb : b.Sound opts) (now : Int)
    (outcome : Settled) : (recordOutcome opts b now outcome).1.Sound opts := by
  cases outcome with
  | published => exact hb.record now true
  | failed => exact hb.record now false
  | dropped => exact hb

theorem notify_halfOpen {moves : List CircuitBreakerState}
    (hmoves : ∀ move ∈ moves, move = .halfOpen) (rest : List CircuitBreakerState) (s : Source) :
    s.notify (moves ++ rest) = s.notify rest := by
  induction moves with
  | nil => rfl
  | cons move moves ih =>
    obtain ⟨rfl, hrest⟩ := List.forall_mem_cons.mp hmoves
    rw [← ih hrest]
    rfl

theorem notify_quiet {moves : List CircuitBreakerState}
    (hmoves : ∀ move ∈ moves, move = .halfOpen) (s : Source) : s.notify moves = s := by
  have hnil := notify_halfOpen hmoves [] s
  rw [List.append_nil] at hnil
  rw [hnil]
  unfold Source.notify
  split <;> rfl

theorem notify_move {moves : List CircuitBreakerState}
    (hmoves : ∀ move ∈ moves, move = .halfOpen) (hl : s.breakerListeners ≠ 0)
    (last : CircuitBreakerState) : s.notify (moves ++ [last]) = s.onTransition last := by
  rw [notify_halfOpen hmoves, Source.notify, if_neg hl]
  rfl

/-- What the listeners make of an outcome. -/
theorem notify_of_moved {b : CircuitBreaker} {r : CircuitBreaker × List CircuitBreakerState}
    (h : CircuitBreaker.Moved b r) (s : Source) :
    (s.breakerListeners = 0 ∧ s.notify r.2 = s) ∨
    (s.breakerListeners ≠ 0 ∧ r.1.state ≠ .closed ∧ s.notify r.2 = s.pauseFor .breaker) ∨
    (s.breakerListeners ≠ 0 ∧ r.1.state = .closed ∧ s.notify r.2 = s.resumeFrom .breaker) ∨
    ((r.1.state = .closed ↔ b.state = .closed) ∧ s.notify r.2 = s) := by
  by_cases hl : s.breakerListeners = 0
  · exact .inl ⟨hl, by rw [Source.notify, if_pos hl]⟩
  · refine .inr ?_
    cases h with
    | opens openedAt moves hmoves hstate =>
      exact .inl ⟨hl, by rw [hstate]; nofun, notify_move hmoves hl _⟩
    | closes moves hmoves hstate => exact .inr (.inl ⟨hl, hstate, notify_move hmoves hl _⟩)
    | stays moves hmoves hstate => exact .inr (.inr ⟨hstate, notify_quiet hmoves s⟩)

theorem resumeFrom_fields (s : Source) (reason : PauseReason) :
    (s.resumeFrom reason).pauseReasons = s.pauseReasons.erase reason ∧
      (s.resumeFrom reason).breaker = s.breaker ∧
      (s.resumeFrom reason).breakerListeners = s.breakerListeners ∧
      (s.resumeFrom reason).inFlight = s.inFlight := by
  unfold Source.resumeFrom
  split
  · exact ⟨rfl, rfl, rfl, rfl⟩
  · rename_i hno
    exact ⟨(Finset.erase_eq_of_notMem hno).symm, rfl, rfl, rfl⟩

theorem PauseInv.pauseFor (h : PauseInv opts s) {reason : PauseReason}
    (hreason : reason = .breaker → s.breaker.state ≠ .closed ∧ s.breakerListeners ≠ 0) :
    PauseInv opts (s.pauseFor reason) where
  sound := h.sound
  waits hmem := by
    rcases Finset.mem_insert.mp hmem with e | hmem
    · exact hreason e.symm
    · exact h.waits hmem

theorem PauseInv.resumeFrom (h : PauseInv opts s) (reason : PauseReason) :
    PauseInv opts (s.resumeFrom reason) := by
  obtain ⟨hreasons, hbreaker, hlisteners, -⟩ := resumeFrom_fields s reason
  refine ⟨by rw [hbreaker]; exact h.sound, fun hmem => ?_⟩
  rw [hreasons] at hmem
  rw [hbreaker, hlisteners]
  exact h.waits (Finset.mem_of_mem_erase hmem)

theorem PauseInv.settle (h : PauseInv opts s) (outcome : Settled) (now : Int) :
    PauseInv opts (s.settle opts outcome now) := by
  have hsound := sound_recordOutcome h.sound now outcome
  have hmoved := moved_recordOutcome opts s.breaker now outcome
  unfold Source.settle
  generalize recordOutcome opts s.breaker now outcome = r at hsound hmoved
  rcases notify_of_moved hmoved (s.record r.1) with
    ⟨hl, hs⟩ | ⟨hl, hstate, hs⟩ | ⟨hl, hstate, hs⟩ | ⟨hstate, hs⟩
  · rw [hs]
    exact ⟨hsound, fun hmem => absurd hl (h.waits hmem).2⟩
  · rw [hs]
    exact ⟨hsound, fun _ => ⟨hstate, hl⟩⟩
  · obtain ⟨hreasons, hbreaker, -, -⟩ := resumeFrom_fields (s.record r.1) .breaker
    rw [hs]
    refine ⟨by rw [hbreaker]; exact hsound, fun hmem => ?_⟩
    rw [hreasons] at hmem
    exact absurd hmem (Finset.notMem_erase _ _)
  · rw [hs]
    exact ⟨hsound, fun hmem => ⟨fun e => (h.waits hmem).1 (hstate.mp e), (h.waits hmem).2⟩⟩

/-- The reset of a breaker finds no reason to take away from a stopped source. -/
theorem notify_reset (h : s.pauseReasons = ∅) (b : CircuitBreaker) : s.notify b.reset.2 = s := by
  have hclosed : s.resumeFrom .breaker = s := by
    rw [Source.resumeFrom, if_neg (by rw [h]; exact Finset.notMem_empty _)]
  unfold Source.notify CircuitBreaker.reset
  split
  · rfl
  · cases b.state with
    | closed => rfl
    | opened openedAt => exact hclosed
    | halfOpen => exact hclosed

theorem PauseInv.step {a : SourceLabel} (h : PauseInv opts s)
    (hstep : sourceStep opts s a = some t) : PauseInv opts t := by
  cases a with
  | starts => cases hstep; exact ⟨h.sound, h.waits⟩
  | started =>
    simp only [sourceStep, Option.ite_none_left_eq_some, Option.some.injEq] at hstep
    obtain ⟨-, rfl⟩ := hstep
    exact ⟨h.sound, fun hmem => ⟨(h.waits hmem).1, Nat.succ_ne_zero _⟩⟩
  | stops =>
    obtain rfl := Option.some.inj hstep
    rw [notify_reset (show s.halt.pauseReasons = ∅ from rfl)]
    exact ⟨⟨fun _ => rfl, nofun⟩, fun hmem => absurd hmem (Finset.notMem_empty _)⟩
  | pauses => cases hstep; exact h.pauseFor nofun
  | resumes => cases hstep; exact h.resumeFrom .manual
  | delivered =>
    simp only [sourceStep, Option.ite_none_right_eq_some, Option.some.injEq] at hstep
    obtain ⟨-, rfl⟩ := hstep
    exact ⟨h.sound, h.waits⟩
  | settled outcome now =>
    simp only [sourceStep, Option.ite_none_left_eq_some, Option.some.injEq] at hstep
    obtain ⟨-, rfl⟩ := hstep
    exact h.settle outcome now
  | busHigh => cases hstep; exact h.pauseFor nofun
  | busLow => cases hstep; exact h.resumeFrom .busPressure

/-! ### Getting the source going again -/

theorem pauseInv_of_run {as : List SourceLabel} (r : Run (sourceStep opts) Any {} as s) :
    PauseInv opts s := by
  have hstart : PauseInv opts {} :=
    ⟨⟨fun _ => rfl, fun e => by cases e⟩, fun hmem => absurd hmem (Finset.notMem_empty _)⟩
  exact Run.invariant hstart (fun _ _ _ ht _ hstep => ht.step hstep) r

/-- Whatever happens without an operator, the successes come from the deliveries in progress. -/
theorem needed_le_of_resumed {as : List SourceLabel} (hs : PauseInv opts s)
    (hbreaker : .breaker ∈ s.pauseReasons)
    (r : Run (sourceStep opts) (fun _ a => Unattended now a) s as t) (ht : t.pauseReasons = ∅) :
    s.breaker.needed opts ≤ s.inFlight := by
  have hrun : PauseInv opts t ∧ (s.breaker.needed opts ≤ s.inFlight ∨
      .breaker ∈ t.pauseReasons ∧
        s.breaker.needed opts + t.inFlight ≤ t.breaker.needed opts + s.inFlight) := by
    refine Run.invariant (P := fun u => PauseInv opts u ∧ (s.breaker.needed opts ≤ s.inFlight ∨
      .breaker ∈ u.pauseReasons ∧
        s.breaker.needed opts + u.inFlight ≤ u.breaker.needed opts + s.inFlight))
      ⟨hs, .inr ⟨hbreaker, le_refl _⟩⟩ (fun u a u' hu ha hstep => ⟨hu.1.step hstep, ?_⟩) r
    obtain ⟨hu, hle | ⟨hmem, hle⟩⟩ := hu
    · exact .inl hle
    cases a with
    | starts => exact ha.elim
    | stops => exact ha.elim
    | pauses => exact ha.elim
    | resumes => exact ha.elim
    | started =>
      simp only [sourceStep, Option.ite_none_left_eq_some, Option.some.injEq] at hstep
      obtain ⟨-, rfl⟩ := hstep
      exact .inr ⟨hmem, hle⟩
    | delivered =>
      -- the transport is paused
      simp only [sourceStep, Option.ite_none_right_eq_some] at hstep
      rw [hstep.1] at hmem
      exact absurd hmem (Finset.notMem_empty _)
    | settled outcome now =>
      simp only [sourceStep, Option.ite_none_left_eq_some, Option.some.injEq] at hstep
      obtain ⟨hin, rfl⟩ := hstep
      obtain ⟨hclosed, hl⟩ := hu.waits hmem
      have hneeded := needed_recordOutcome hu.sound hclosed now outcome
      have hmoved := moved_recordOutcome opts u.breaker now outcome
      unfold Source.settle
      generalize recordOutcome opts u.breaker now outcome = r at hneeded hmoved
      have hnext : s.breaker.needed opts + (u.inFlight - 1) ≤ r.1.needed opts + s.inFlight := by
        omega
      rcases notify_of_moved hmoved (u.record r.1) with
        ⟨-, hu'⟩ | ⟨-, -, hu'⟩ | ⟨-, hstate, -⟩ | ⟨-, hu'⟩
      · rw [hu']
        exact .inr ⟨hmem, hnext⟩
      · rw [hu']
        exact .inr ⟨Finset.mem_insert_self _ _, hnext⟩
      · have hzero : r.1.needed opts = 0 := by simp [CircuitBreaker.needed, hstate]
        exact .inl (by omega)
      · rw [hu']
        exact .inr ⟨hmem, hnext⟩
    | busHigh =>
      cases hstep
      exact .inr ⟨Finset.mem_insert_of_mem hmem, hle⟩
    | busLow =>
      cases hstep
      obtain ⟨hreasons, hb, -, hin⟩ := resumeFrom_fields u .busPressure
      rw [hreasons, hb, hin]
      exact .inr ⟨Finset.mem_erase.mpr ⟨by decide, hmem⟩, hle⟩
  obtain ⟨-, hle | ⟨hmem, -⟩⟩ := hrun
  · exact hle
  · rw [ht] at hmem
    exact absurd hmem (Finset.notMem_empty _)

theorem halfOpen_of_cooled {b : CircuitBreaker} (hclosed : b.state ≠ .closed)
    (hcooled : Cooled opts b now) : (b.advance opts now).1.state = .halfOpen := by
  cases hstate : (b.advance opts now).1.state with
  | closed => exact absurd ((CircuitBreaker.advance_counts _ _ _).2.2.mp hstate) hclosed
  | opened openedAt =>
    obtain ⟨t, ht, hlt⟩ := CircuitBreaker.isOpen_advance.mp ⟨openedAt, hstate⟩
    exact absurd (hcooled t ht) (Int.not_le.mpr hlt)
  | halfOpen => rfl

/-- Enough successes close the breaker and resume the source. -/
theorem exists_resumed (hs : PauseInv opts s) (honly : s.pauseReasons = {.breaker})
    (hcooled : Cooled opts s.breaker now) (hin : s.breaker.needed opts ≤ s.inFlight) :
    ∃ as t, Run (sourceStep opts) (fun _ a => Unattended now a) s as t ∧ Resumed t := by
  induction hn : s.breaker.needed opts generalizing s with
  | zero =>
    have hmem : .breaker ∈ s.pauseReasons := by rw [honly]; exact Finset.mem_singleton_self _
    have hhalf := halfOpen_of_cooled (hs.waits hmem).1 hcooled
    have hneeded := (CircuitBreaker.needed_onSuccess hs.sound hhalf).1
    omega
  | succ n ih =>
    have hmem : .breaker ∈ s.pauseReasons := by rw [honly]; exact Finset.mem_singleton_self _
    obtain ⟨hclosed, hl⟩ := hs.waits hmem
    have hhalf := halfOpen_of_cooled hclosed hcooled
    have hneeded := (CircuitBreaker.needed_onSuccess hs.sound hhalf).1
    have hmoves := CircuitBreaker.advance_moves opts s.breaker now
    have hnow : Unattended now (.settled .published now) := le_refl now
    have hstep : sourceStep opts s (.settled .published now) =
        some (s.settle opts .published now) := by
      rw [sourceStep, if_neg (by omega)]
    have hs' := hs.step hstep
    have hnext : s.settle opts .published now =
        (s.record (s.breaker.onSuccess opts now).1).notify (s.breaker.onSuccess opts now).2 := rfl
    have hsuccess := CircuitBreaker.onSuccess_of_halfOpen hhalf
    rw [hsuccess] at hneeded hnext
    split at hneeded
    · -- the last success that was needed
      rename_i hthreshold
      have hresumed : s.settle opts .published now = (s.record {}).resumeFrom .breaker := by
        rw [hnext, if_pos hthreshold]
        exact notify_move hmoves (show (s.record {}).breakerListeners ≠ 0 from hl) .closed
      rw [hresumed] at hstep
      refine ⟨_, _, .snoc .nil hnow hstep, ?_⟩
      have herase : ({.breaker} : Finset PauseReason).erase .breaker = ∅ := by decide
      simp [Source.resumeFrom, Source.record, Resumed, honly, herase]
    · rename_i hthreshold
      have hprobe : s.settle opts .published now =
          s.record ⟨.halfOpen, 0, s.breaker.consecutiveSuccesses + 1⟩ := by
        rw [hnext, if_neg hthreshold]
        exact notify_quiet hmoves _
      rw [hprobe] at hstep hs'
      have hleft : (s.record ⟨.halfOpen, 0, s.breaker.consecutiveSuccesses + 1⟩).breaker.needed
          opts = n := Nat.succ.inj (hneeded.trans hn)
      obtain ⟨as, t, r, ht⟩ := ih hs' honly nofun
        (hleft.trans_le (Nat.le_sub_one_of_lt (by omega))) hleft
      exact ⟨_, t, .cons hnow hstep r, ht⟩

/-- **A source that only its breaker keeps paused** goes on without an operator, once the
cool-down is over, if and only if enough deliveries are still in progress to close the breaker. -/
theorem recovers_iff (opts : CircuitBreakerOptions) {as : List SourceLabel} {s : Source}
    (r : Run (sourceStep opts) Any {} as s) (honly : s.pauseReasons = {.breaker}) {now : Int}
    (hcooled : Cooled opts s.breaker now) :
    (∃ bs t, Run (sourceStep opts) (fun _ a => Unattended now a) s bs t ∧ Resumed t) ↔
      s.breaker.needed opts ≤ s.inFlight := by
  have hs := pauseInv_of_run r
  constructor
  · rintro ⟨bs, t, r', ht⟩
    exact needed_le_of_resumed hs (by rw [honly]; exact Finset.mem_singleton_self _) r' ht.1
  · exact exists_resumed hs honly hcooled

/-- The first failure opens the breaker. -/
def oneFailure : CircuitBreakerOptions := { failureThreshold := ⟨1, Nat.one_pos⟩ }

/-- A source whose only delivery fails stays paused after the cool-down. -/
theorem stays_paused : ∃ s, Run (sourceStep oneFailure) Any {}
        [.starts, .started, .delivered, .settled .failed 0] s ∧
      s.pauseReasons = {.breaker} ∧ Cooled oneFailure s.breaker 30000 ∧
      ¬ ∃ bs t, Run (sourceStep oneFailure) (fun _ a => Unattended 30000 a) s bs t ∧ Resumed t := by
  have hreplay : (exec (sourceStep oneFailure) {}
      [.starts, .started, .delivered, .settled .failed 0]).any (fun s =>
        decide (s.pauseReasons = {.breaker} ∧ s.breaker = ⟨.opened 0, 1, 0⟩ ∧ s.inFlight = 0)) =
          true := by
    decide
  obtain ⟨s, r, h⟩ := Run.any_of_replay hreplay
  obtain ⟨hreasons, hbreaker, hin⟩ := of_decide_eq_true h
  refine ⟨s, r, hreasons, fun openedAt hopened => ?_, ?_⟩
  · rw [hbreaker] at hopened
    cases hopened
    decide
  · rintro ⟨bs, t, r', ht⟩
    have hmem : .breaker ∈ s.pauseReasons := by rw [hreasons]; exact Finset.mem_singleton_self _
    have hle := needed_le_of_resumed (pauseInv_of_run r) hmem r' ht.1
    rw [hbreaker, hin] at hle
    exact absurd hle (by decide)

/-- With a second delivery in progress the source recovers. -/
theorem recovers_iff_pending : ∃ s, s.inFlight = 1 ∧
    ∃ bs t, Run (sourceStep oneFailure) (fun _ a => Unattended 30000 a) s bs t ∧ Resumed t := by
  have hreplay : (exec (sourceStep oneFailure) {}
      [.starts, .started, .delivered, .delivered, .settled .failed 0]).any (fun s =>
        decide (s.pauseReasons = {.breaker} ∧ s.breaker = ⟨.opened 0, 1, 0⟩ ∧ s.inFlight = 1)) =
          true := by
    decide
  obtain ⟨s, r, h⟩ := Run.any_of_replay hreplay
  obtain ⟨hreasons, hbreaker, hin⟩ := of_decide_eq_true h
  have hcooled : Cooled oneFailure s.breaker 30000 := fun openedAt hopened => by
    rw [hbreaker] at hopened
    cases hopened
    decide
  refine ⟨s, hin, (recovers_iff oneFailure r hreasons hcooled).mpr ?_⟩
  rw [hbreaker, hin]
  decide

end Declaragent.Sources
