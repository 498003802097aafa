import Declaragent.Builder.ApplyChange
import Declaragent.Library.Transition

/-!
# Builder — the executions of a proposal

An execution of `DeclaraApplyChange` looks at the status of the proposal when it is called, and
marks the proposal as applied after its last step.  Between the two it awaits, and others run.

* `executionStep`: an execution from one await to the next, or what happens to the proposal.
* `Alone`: no execution is started while another is on its way.
* `onlyOnce_of_run`: then the steps are dispatched by one at a time, and by none after a success.
-/

namespace Declaragent.Builder
open Transition

/-- What an execution awaits. -/
inductive ExecutionPhase where
  | capturingHead
  | dispatching (step : Nat)
  /-- No step is dispatched any more. -/
  | ended
  deriving DecidableEq

def ExecutionPhase.dispatches : ExecutionPhase → Bool
  | .dispatching _ => true
  | _ => false

/-- A proposal and its executions.  `succeeded`, `late` and `unconfirmed` are history: whether an
execution has succeeded, and whether a step was dispatched after that, or of a proposal that was
not confirmed. -/
structure ProposalExecutions where
  status : ProposalStatus := .pending
  executions : Nat → ExecutionPhase := fun _ => .ended
  nextExecution : Nat := 0
  succeeded : Bool := false
  late : Bool := false
  unconfirmed : Bool := false

inductive ExecutionLabel where
  | confirm
  | reject
  | expire
  | execute
  /-- `captureHead` is over; `aborted` is what the loop finds before its first step. -/
  | captured (execution : Nat) (aborted : Bool)
  /-- The step and its audit record are over. -/
  | stepped (execution : Nat) (ok aborted : Bool)

namespace ProposalExecutions
variable (s : ProposalExecutions)

def setExecution (i : Nat) (phase : ExecutionPhase) : ProposalExecutions :=
  { s with executions := Function.update s.executions i phase }

def dispatch (i step : Nat) : ProposalExecutions :=
  { s.setExecution i (.dispatching step) with
    late := s.late || s.succeeded
    unconfirmed := s.unconfirmed || (s.status ≠ .confirmed && s.status ≠ .applied) }

/-- An execution goes on after so many steps of the proposal, or marks it as applied. -/
def goOn (steps i done : Nat) (aborted : Bool) : ProposalExecutions :=
  if done < steps then if aborted then s.setExecution i .ended else s.dispatch i done
  else
    { s.setExecution i .ended with
      status := if s.status = .confirmed then .applied else s.status
      succeeded := true }

variable {s} {i j : Nat}

@[simp]
theorem setExecution_self (phase : ExecutionPhase) :
    (s.setExecution i phase).executions i = phase :=
  Function.update_self ..

theorem setExecution_of_ne (hj : j ≠ i) (phase : ExecutionPhase) :
    (s.setExecution i phase).executions j = s.executions j :=
  Function.update_of_ne hj ..

end ProposalExecutions

/-- A proposal that is pending becomes what it is resolved to. -/
def resolve (s : ProposalExecutions) (status : ProposalStatus) : ProposalExecutions :=
  if s.status = .pending then { s with status } else s

/-- `steps` is the number of the proposal's steps. -/
def executionStep (steps : Nat) (s : ProposalExecutions) :
    ExecutionLabel → Option ProposalExecutions
  | .confirm => some (resolve s .confirmed)
  | .reject => some (resolve s .rejected)
  | .expire => some (resolve s .expired)
  | .execute =>
    if s.status = .confirmed then
      some { s.setExecution s.nextExecution .capturingHead with
        nextExecution := s.nextExecution + 1 }
    else some s
  | .captured i aborted =>
    if s.executions i = .capturingHead then some (s.goOn steps i 0 aborted) else none
  | .stepped i ok aborted =>
    match s.executions i with
    | .dispatching step =>
      some (if ok then s.goOn steps i (step + 1) aborted else s.setExecution i .ended)
    | _ => none

/-- One execution at a time dispatches the steps, none after one has succeeded, and none those of a
proposal that was not confirmed. -/
structure OnlyOnce (s : ProposalExecutions) : Prop where
  one : ∀ i j, (s.executions i).dispatches = true → (s.executions j).dispatches = true → i = j
  late : s.late = false
  unconfirmed : s.unconfirmed = false

def Alone (s : ProposalExecutions) : ExecutionLabel → Prop
  | .execute => s.status = .confirmed → ∀ i < s.nextExecution, s.executions i = .ended
  | _ => True

/-! ### What a run keeps -/

variable {steps i : Nat} {s t : ProposalExecutions} {label : ExecutionLabel}

/-- One execution at most is on its way, of a proposal that is confirmed. -/
structure ExecutionsKept (s : ProposalExecutions) : Prop where
  fresh : ∀ i, s.nextExecution ≤ i → s.executions i = .ended
  one : ∀ i j, s.executions i ≠ .ended → s.executions j ≠ .ended → i = j
  confirmed : ∀ i, s.executions i ≠ .ended → s.status = .confirmed
  succeeded : s.succeeded = true → s.status = .applied
  late : s.late = false
  unconfirmed : s.unconfirmed = false

theorem ExecutionsKept.onlyOnce (h : ExecutionsKept s) : OnlyOnce s := by
  have hrunning : ∀ i, (s.executions i).dispatches = true → s.executions i ≠ .ended := by
    intro i hi he
    rw [he] at hi
    cases hi
  exact ⟨fun i j hi hj => h.one i j (hrunning i hi) (hrunning j hj), h.late, h.unconfirmed⟩

/-- An execution that is on its way goes on, while the proposal stays confirmed. -/
theorem ExecutionsKept.setExecution (h : ExecutionsKept s) (hi : s.executions i ≠ .ended)
    (phase : ExecutionPhase) : ExecutionsKept (s.setExecution i phase) := by
  have hothers : ∀ j, j ≠ i → s.executions j = .ended := by
    intro j hj
    by_contra hne
    exact hj (h.one j i hne hi)
  have hother : ∀ j, j ≠ i → (s.setExecution i phase).executions j = .ended := by
    intro j hj
    rw [ProposalExecutions.setExecution_of_ne hj]
    exact hothers j hj
  have honly : ∀ j, (s.setExecution i phase).executions j ≠ .ended → j = i := by
    intro j hj
    by_contra hne
    exact hj (hother j hne)
  refine ⟨fun j hj => hother j ?_, fun j k hj hk => (honly j hj).trans (honly k hk).symm,
    fun _ _ => h.confirmed i hi, h.succeeded, h.late, h.unconfirmed⟩
  rintro rfl
  exact hi (h.fresh j hj)

theorem ExecutionsKept.goOn (h : ExecutionsKept s) (hi : s.executions i ≠ .ended)
    (steps done : Nat) (aborted : Bool) : ExecutionsKept (s.goOn steps i done aborted) := by
  have hconfirmed := h.confirmed i hi
  have hnone : s.succeeded = false := by
    by_contra hne
    have happlied := h.succeeded (Bool.not_eq_false _ ▸ hne)
    rw [hconfirmed] at happlied
    cases happlied
  unfold ProposalExecutions.goOn
  split
  · split
    · exact h.setExecution hi .ended
    · have hset := h.setExecution hi (.dispatching done)
      refine ⟨hset.fresh, hset.one, hset.confirmed, hset.succeeded, ?_, ?_⟩
      · show (s.late || s.succeeded) = false
        rw [h.late, hnone]
        rfl
      · show (s.unconfirmed || _) = false
        rw [h.unconfirmed, hconfirmed]
        rfl
  · have hset := h.setExecution hi .ended
    have hended : ∀ j, (s.setExecution i .ended).executions j = .ended := by
      intro j
      by_contra hne
      have hj : j = i := by
        by_contra hj
        rw [ProposalExecutions.setExecution_of_ne hj] at hne
        exact hj (h.one j i hne hi)
      rw [hj, ProposalExecutions.setExecution_self] at hne
      exact hne rfl
    exact ⟨hset.fresh, hset.one, fun j hj => absurd (hended j) hj, fun _ => rfl, h.late,
      h.unconfirmed⟩

theorem ExecutionsKept.resolve (h : ExecutionsKept s) (status : ProposalStatus) :
    ExecutionsKept (resolve s status) := by
  unfold Builder.resolve
  split
  · rename_i hpending
    refine ⟨h.fresh, h.one, fun i hi => ?_, fun hs => ?_, h.late, h.unconfirmed⟩
    · cases hpending.symm.trans (h.confirmed i hi)
    · cases hpending.symm.trans (h.succeeded hs)
  · exact h

theorem ExecutionsKept.step (h : ExecutionsKept s) (halone : Alone s label)
    (hstep : executionStep steps s label = some t) : ExecutionsKept t := by
  cases label with
  | confirm => obtain rfl := Option.some.inj hstep; exact h.resolve _
  | reject => obtain rfl := Option.some.inj hstep; exact h.resolve _
  | expire => obtain rfl := Option.some.inj hstep; exact h.resolve _
  | execute =>
    simp only [executionStep] at hstep
    split at hstep
    · rename_i hconfirmed
      obtain rfl := Option.some.inj hstep
      have hended : ∀ i, s.executions i = .ended := by
        intro i
        by_cases hi : i < s.nextExecution
        · exact halone hconfirmed i hi
        · exact h.fresh i (Nat.le_of_not_lt hi)
      have hother : ∀ j, j ≠ s.nextExecution →
          (s.setExecution s.nextExecution .capturingHead).executions j = .ended := by
        intro j hj
        rw [ProposalExecutions.setExecution_of_ne hj]
        exact hended j
      have honly : ∀ j, (s.setExecution s.nextExecution .capturingHead).executions j ≠ .ended →
          j = s.nextExecution := by
        intro j hj
        by_contra hne
        exact hj (hother j hne)
      exact ⟨fun j hj => hother j (Nat.ne_of_gt hj),
        fun j k hj hk => (honly j hj).trans (honly k hk).symm, fun _ _ => hconfirmed,
        h.succeeded, h.late, h.unconfirmed⟩
    · obtain rfl := Option.some.inj hstep
      exact h
  | captured i aborted =>
    simp only [executionStep] at hstep
    split at hstep
    · rename_i hphase
      obtain rfl := Option.some.inj hstep
      exact h.goOn (by rw [hphase]; exact nofun) _ _ _
    · cases hstep
  | stepped i ok aborted =>
    simp only [executionStep] at hstep
    split at hstep
    · rename_i step hphase
      have hi : s.executions i ≠ .ended := by rw [hphase]; exact nofun
      obtain rfl := Option.some.inj hstep
      split
      · exact h.goOn hi _ _ _
      · exact h.setExecution hi .ended
    · cases hstep

/-- **A proposal is executed at most once** in a run in which no execution of it is started while
another is on its way. -/
theorem onlyOnce_of_run {labels : List ExecutionLabel}
    (r : Run (executionStep steps) Alone {} labels s) : OnlyOnce s := by
  have hstart : ExecutionsKept {} :=
    ⟨fun _ _ => rfl, fun _ _ hi => absurd rfl hi, fun _ hi => absurd rfl hi, nofun, rfl, rfl⟩
  have hkept : ExecutionsKept s :=
    Run.invariant hstart (fun _ _ _ hs halone hstep => hs.step halone hstep) r
  exact hkept.onlyOnce

instance : ∀ (s : ProposalExecutions) (label : ExecutionLabel), Decidable (Alone s label)
  | s, .execute => inferInstanceAs (Decidable
      (s.status = .confirmed → ∀ i < s.nextExecution, s.executions i = .ended))
  | _, .confirm | _, .reject | _, .expire | _, .captured _ _ | _, .stepped _ _ _ => .isTrue trivial

/-- A step fails, and a second execution succeeds. -/
theorem onlyOnce_of_run_retried :
    ∃ s : ProposalExecutions, Run (executionStep 2) Alone {}
        [.confirm, .execute, .captured 0 false, .stepped 0 false false, .execute,
          .captured 1 false, .stepped 1 true false, .stepped 1 true false, .execute] s ∧
      s.succeeded = true ∧ OnlyOnce s := by
  have hreplay : (exec (guarded (executionStep 2) Alone) ({} : ProposalExecutions)
      [.confirm, .execute, .captured 0 false, .stepped 0 false false, .execute,
        .captured 1 false, .stepped 1 true false, .stepped 1 true false, .execute]).any
      (·.succeeded) = true := by decide
  obtain ⟨s, r, hs⟩ := Run.of_replay hreplay
  exact ⟨s, r, hs, onlyOnce_of_run r⟩

/-- Two executions dispatch the first step, and one of them goes on after the other's success. -/
theorem dispatched_by_two :
    (∃ s : ProposalExecutions, Run (executionStep 2) Any {}
        [.confirm, .execute, .execute, .captured 0 false, .captured 1 false] s ∧
      s.executions 0 = .dispatching 0 ∧ s.executions 1 = .dispatching 0 ∧ ¬ OnlyOnce s) ∧
    ∃ s : ProposalExecutions, Run (executionStep 1) Any {}
        [.confirm, .execute, .execute, .captured 0 false, .stepped 0 true false,
          .captured 1 false] s ∧
      s.status = .applied ∧ s.late = true ∧ ¬ OnlyOnce s := by
  refine ⟨⟨_, .any_of_exec rfl, rfl, rfl, fun h => ?_⟩,
    ⟨_, .any_of_exec rfl, rfl, rfl, fun h => ?_⟩⟩
  · cases h.one 0 1 rfl rfl
  · cases h.late

end Declaragent.Builder
