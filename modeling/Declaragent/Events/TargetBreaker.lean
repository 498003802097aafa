import Declaragent.Engine.RunAgent
import Declaragent.Events.CircuitBreaker
import Declaragent.Events.Types
import Declaragent.Library.Transition

/-!
# Events — the circuit breaker of a skill

`executeTarget` asks the breaker of a skill before it runs it, and records afterwards whether the
run threw.  The engine turns what goes wrong inside a turn into a result with stop reason `error`,
so a run may fail without a throw.  Any number of runs of one skill go on at a time.

* `CountsThrown.of_step`: a closed breaker counts the runs that threw since the last that did not.
* `opens_iff`: in which runs `failureThreshold` failures in a row open the breaker.
-/

namespace Declaragent.Events
open Engine Transition

/-! ### Running a skill -/

/-- What happens in `runSkill`, up to the turn: each of the calls may throw, and `render` gives the
prompt. -/
structure SkillRun where
  before : Option String := none
  render : Except String String
  createChildSession : Option String := none
  updateSpec : Option String := none
  config : EngineConfig
  turn : Turn

/-- The observers of `skill.after` do not throw. -/
def runSkill (run : SkillRun) : Except String RunAgentResult :=
  match run.before with
  | some err => .error err
  | none =>
    match run.render with
    | .error err => .error err
    | .ok rendered =>
      match run.createChildSession, run.updateSpec with
      | some err, _ | none, some err => .error err
      | none, none =>
        (runAgent run.config { run.turn with userMessage := rendered, depth := 1 } []).1

/-- A run of the target: a turn of a pinned session, or the skill's own prompt. -/
inductive Execution where
  | pinned (config : EngineConfig) (turn : Turn) (transcript : List Message)
  | skill (run : SkillRun)

def Execution.result : Execution → Except String RunAgentResult
  | .pinned config turn transcript => (runAgent config turn transcript).1
  | .skill run => runSkill run

/-- How a run ended. -/
inductive Ending where
  | threw
  | finished (stopReason : RunStopReason)
  deriving DecidableEq

def Execution.ending (e : Execution) : Ending :=
  match e.result with
  | .error _ => .threw
  | .ok result => .finished result.stopReason

/-- The run threw, or its result says `error`. -/
def Ending.Failed : Ending → Prop
  | .threw => True
  | .finished stopReason => stopReason = .error

/-! ### The target -/

/-- The breaker, the runs in progress, and how the others ended, the last first. -/
structure Target where
  breaker : CircuitBreaker := {}
  executing : Nat := 0
  endings : List Ending := []

inductive TargetLabel where
  | arrives (now : Int)
  | ends (e : Execution) (now : Int)

/-- The outcome of an event that the breaker stops. -/
def skillGate (opts : CircuitBreakerOptions) (name : String) (b : CircuitBreaker) (now : Int) :
    CircuitBreaker × Option DispatchOutcome :=
  match b.allow opts now with
  | (b, _, true) => (b, none)
  | (b, _, false) =>
    (b, some (.rejected .circuitOpen (some ("skill \"" ++ name ++ "\" breaker is " ++
      b.state.name ++ "; cooldown in progress"))))

/-- An event for the skill, or the end of a run. -/
def targetStep (opts : CircuitBreakerOptions) (name : String) (s : Target) :
    TargetLabel → Option Target
  | .arrives now =>
    match skillGate opts name s.breaker now with
    | (b, none) => some { s with breaker := b, executing := s.executing + 1 }
    | (b, some _) => some { s with breaker := b }
  | .ends e now =>
    if s.executing = 0 then none
    else
      some {
        breaker := (s.breaker.record opts now (decide (e.ending ≠ .threw))).1
        executing := s.executing - 1
        endings := e.ending :: s.endings }

/-- The last `n` runs failed. -/
def Failing (n : Nat) (endings : List Ending) : Prop :=
  n ≤ endings.length ∧ ∀ ending ∈ endings.take n, ending.Failed

/-- Where the end of a run makes `failureThreshold` failures in a row, the breaker is open after
it, and stops the next event of the cool-down. -/
def Opens (opts : CircuitBreakerOptions) (name : String) (s : Target) : TargetLabel → Prop
  | .arrives _ => True
  | .ends e now =>
    Failing opts.failureThreshold.1 (e.ending :: s.endings) →
      ∃ openedAt, (s.breaker.record opts now (decide (e.ending ≠ .threw))).1.state =
          .opened openedAt ∧
        ∀ next, next - openedAt < opts.resetTimeoutMs →
          (skillGate opts name
            (s.breaker.record opts now (decide (e.ending ≠ .threw))).1 next).2 =
            some (.rejected .circuitOpen (some ("skill \"" ++ name ++ "\" breaker is " ++
              "open" ++ "; cooldown in progress")))

/-- Where the end of a run makes `failureThreshold` failures in a row, the breaker is open
already, or the run threw, and the breaker is half-open or the runs before it threw as well. -/
def Throws (opts : CircuitBreakerOptions) (s : Target) : TargetLabel → Prop
  | .arrives _ => True
  | .ends e now =>
    Failing opts.failureThreshold.1 (e.ending :: s.endings) →
      (s.breaker.advance opts now).1.IsOpen ∨
        e.ending = .threw ∧ ((s.breaker.advance opts now).1.state = .halfOpen ∨
          ∀ ending ∈ s.endings.take (opts.failureThreshold.1 - 1), ending = .threw)

/-! ### What the breaker counts -/

/-- A closed breaker has counted the runs that threw since the last that did not. -/
def CountsThrown (s : Target) : Prop :=
  s.breaker.state = .closed →
    s.breaker.consecutiveFailures = (s.endings.takeWhile (· = .threw)).length

variable {opts : CircuitBreakerOptions} {name : String} {s t : Target} {a : TargetLabel}

theorem skillGate_fst (opts : CircuitBreakerOptions) (name : String) (b : CircuitBreaker)
    (now : Int) : (skillGate opts name b now).1 = (b.advance opts now).1 := by
  unfold skillGate
  split <;> rename_i h <;> exact (congrArg Prod.fst h).symm

theorem skillGate_of_opened {b : CircuitBreaker} {openedAt now : Int}
    (hb : b.state = .opened openedAt) (hnow : now - openedAt < opts.resetTimeoutMs) :
    (skillGate opts name b now).2 =
      some (.rejected .circuitOpen (some ("skill \"" ++ name ++ "\" breaker is " ++
        "open" ++ "; cooldown in progress"))) := by
  have hadvance : b.advance opts now = (b, []) := by
    simp [CircuitBreaker.advance, hb, Int.not_le.mpr hnow]
  simp [skillGate, CircuitBreaker.allow, hadvance, hb, CircuitBreakerState.name]

theorem record_fst (b : CircuitBreaker) (now : Int) (ending : Ending) :
    (b.record opts now (decide (ending ≠ .threw))).1 =
      if ending = .threw then (b.onFailure opts now).1 else (b.onSuccess opts now).1 := by
  unfold CircuitBreaker.record
  by_cases h : ending = .threw <;> simp [h]

theorem CountsThrown.of_step (h : CountsThrown s) (hstep : targetStep opts name s a = some t) :
    CountsThrown t := by
  cases a with
  | arrives now =>
    have hbreaker : t.breaker = (s.breaker.advance opts now).1 ∧ t.endings = s.endings := by
      rw [← skillGate_fst opts name]
      simp only [targetStep] at hstep
      split at hstep <;> rename_i hgate <;> cases hstep <;> simp [hgate]
    obtain ⟨hfailures, -, hclosed⟩ := CircuitBreaker.advance_counts opts s.breaker now
    intro ht
    rw [hbreaker.1] at ht
    rw [hbreaker.1, hbreaker.2, hfailures]
    exact h (hclosed.mp ht)
  | ends e now =>
    simp only [targetStep, Option.ite_none_left_eq_some, Option.some.injEq] at hstep
    obtain ⟨-, rfl⟩ := hstep
    intro ht
    rw [record_fst] at ht ⊢
    by_cases hthrew : e.ending = .threw
    · rw [if_pos hthrew] at ht ⊢
      obtain ⟨hclosed, hfailures⟩ := CircuitBreaker.failures_of_onFailure ht
      rw [hfailures, h hclosed]
      simp [hthrew]
    · rw [if_neg hthrew] at ht ⊢
      rw [CircuitBreaker.failures_of_onSuccess]
      simp [hthrew]

/-- A prefix of the runs threw, where enough of them did. -/
theorem take_threw_iff {endings : List Ending} {n : Nat} (h : n ≤ endings.length) :
    (∀ ending ∈ endings.take n, ending = .threw) ↔
      n ≤ (endings.takeWhile (· = .threw)).length := by
  induction endings generalizing n with
  | nil => simp [Nat.le_zero.mp h]
  | cons ending endings ih =>
    cases n with
    | zero => simp
    | succ n =>
      by_cases hthrew : ending = .threw
      · simp [hthrew, ih (Nat.le_of_succ_le_succ h)]
      · simp [hthrew]

/-- The breaker opens at the end of a run exactly where the run threw enough. -/
theorem opens_iff_throws (h : CountsThrown s) : Opens opts name s a ↔ Throws opts s a := by
  cases a with
  | arrives now => exact Iff.rfl
  | ends e now =>
    refine forall_congr' fun hfailing => ?_
    have hopen : (∃ openedAt, (s.breaker.record opts now (decide (e.ending ≠ .threw))).1.state =
          .opened openedAt ∧
        ∀ next, next - openedAt < opts.resetTimeoutMs →
          (skillGate opts name
            (s.breaker.record opts now (decide (e.ending ≠ .threw))).1 next).2 =
            some (.rejected .circuitOpen (some ("skill \"" ++ name ++ "\" breaker is " ++
              "open" ++ "; cooldown in progress")))) ↔
        (s.breaker.record opts now (decide (e.ending ≠ .threw))).1.IsOpen := by
      constructor
      · rintro ⟨openedAt, hstate, -⟩
        exact ⟨openedAt, hstate⟩
      · rintro ⟨openedAt, hstate⟩
        exact ⟨openedAt, hstate, fun next hnext => skillGate_of_opened hstate hnext⟩
    rw [hopen, record_fst]
    by_cases hthrew : e.ending = .threw
    · rw [if_pos hthrew, CircuitBreaker.isOpen_onFailure]
      have hlength : opts.failureThreshold.1 - 1 ≤ s.endings.length := by
        have := hfailing.1
        simp only [List.length_cons] at this
        omega
      obtain ⟨-, -, hclosed⟩ := CircuitBreaker.advance_counts opts s.breaker now
      refine or_congr_right' fun hopen => ?_
      rw [and_iff_right hthrew, take_threw_iff hlength]
      refine or_congr_right' fun hhalf => ?_
      have hnow : (s.breaker.advance opts now).1.state = .closed := by
        cases hstate : (s.breaker.advance opts now).1.state with
        | closed => rfl
        | opened openedAt => exact absurd ⟨openedAt, hstate⟩ hopen
        | halfOpen => exact absurd hstate hhalf
      rw [and_iff_right hnow, h (hclosed.mp hnow)]
      omega
    · rw [if_neg hthrew, CircuitBreaker.isOpen_onSuccess]
      simp [hthrew]

/-- **Failing runs open the breaker** in exactly the runs of the target in which they throw. -/
theorem opens_iff (opts : CircuitBreakerOptions) (name : String) {as : List TargetLabel}
    {s : Target} : Run (targetStep opts name) (Opens opts name) {} as s ↔
      Run (targetStep opts name) (Throws opts) {} as s :=
  Run.congr (P := CountsThrown) (fun _ => rfl) fun _ _ _ hcounts hstep =>
    ⟨hcounts.of_step hstep, opens_iff_throws hcounts⟩

/-- A run whose provider call fails. -/
def outage : Execution :=
  .skill
    { render := .ok "go"
      config := { tools := [] }
      turn := {
        userMessage := ""
        iterations := fun _ =>
          { complete := .error "503", blocks := fun _ => { execute := ⟨[], none⟩ } } } }

/-- Two provider outages in a row leave a breaker with threshold two closed, and the third event
is let through. -/
theorem outage_keeps_closed : ∃ s,
    Run (targetStep { failureThreshold := ⟨2, by decide⟩ } "skill") Any {}
        [.arrives 0, .ends outage 1, .arrives 2, .ends outage 3] s ∧
      s.endings = [.finished .error, .finished .error] ∧ s.breaker.state = .closed ∧
      (skillGate { failureThreshold := ⟨2, by decide⟩ } "skill" s.breaker 4).2 = none := by
  have hreplay : (exec (targetStep { failureThreshold := ⟨2, by decide⟩ } "skill") {}
      [.arrives 0, .ends outage 1, .arrives 2, .ends outage 3]).any (fun s =>
        decide (s.endings = [.finished .error, .finished .error] ∧ s.breaker.state = .closed ∧
          (skillGate { failureThreshold := ⟨2, by decide⟩ } "skill" s.breaker 4).2 = none)) =
            true := by
    decide
  obtain ⟨s, r, h⟩ := Run.any_of_replay hreplay
  exact ⟨s, r, of_decide_eq_true h⟩

end Declaragent.Events
