import Mathlib.Logic.Relation
import Declaragent.Library.Transition

/-!
# Library — tasks that interleave at their suspension points

A cooperative runtime runs one task at a time: a task keeps the processor from one suspension
point to the next, and at a suspension point any other task may go on.  So a task is a state
machine over its own control point and locals `Loc`, whose steps are the code between two
suspension points, and a program is any number of such machines over a shared store `Sh`,
together with an environment that changes the store on its own.

`System.step` is the interleaving.  `Outline` is a proof outline in the manner of Owicki and
Gries: an assertion on the store, an assertion for each task about its control point and the
store, and an assertion about each two tasks.  `Outline.Kept.holds_of_run` is the rule: if each step
of a task keeps the three, its own and those of the others, they hold in every state a run
reaches.

`Serial` is the other end: tasks one after another, each of which makes its moves with nobody
else about.
-/

namespace Async
open Transition

variable {ι Sh Loc Act Env : Type}

/-- Tasks named by `ι`; `task i sh l a` is the step of task `i` at control point `l` along `a`. -/
structure System (ι Sh Loc Act Env : Type) where
  task : ι → Sh → Loc → Act → Option (Sh × Loc)
  env : Sh → Env → Option Sh

structure State (ι Sh Loc : Type) where
  shared : Sh
  loc : ι → Loc

inductive Label (ι Act Env : Type) where
  | task (i : ι) (a : Act)
  | env (e : Env)

/-- Set the control point of one task. -/
def State.move [DecidableEq ι] (s : State ι Sh Loc) (i : ι) (sh : Sh) (l : Loc) :
    State ι Sh Loc :=
  ⟨sh, Function.update s.loc i l⟩

@[simp] theorem State.move_shared [DecidableEq ι] (s : State ι Sh Loc) (i : ι) (sh : Sh) (l : Loc) :
    (s.move i sh l).shared = sh := rfl

@[simp] theorem State.move_loc_self [DecidableEq ι] (s : State ι Sh Loc) (i : ι) (sh : Sh)
    (l : Loc) : (s.move i sh l).loc i = l := by
  simp [State.move]

theorem State.move_loc_of_ne [DecidableEq ι] (s : State ι Sh Loc) {i j : ι} (h : j ≠ i) (sh : Sh)
    (l : Loc) : (s.move i sh l).loc j = s.loc j := by
  simp [State.move, h]

@[simp] theorem State.move_move [DecidableEq ι] (s : State ι Sh Loc) (i : ι) (sh sh' : Sh)
    (l l' : Loc) : (s.move i sh l).move i sh' l' = s.move i sh' l' := by
  simp [State.move]

/-- One step of the interleaving. -/
def System.step [DecidableEq ι] (S : System ι Sh Loc Act Env) (s : State ι Sh Loc) :
    Label ι Act Env → Option (State ι Sh Loc)
  | .task i a => (S.task i s.shared (s.loc i) a).map fun r => s.move i r.1 r.2
  | .env e => (S.env s.shared e).map fun sh => { s with shared := sh }

section
variable [DecidableEq ι] {S : System ι Sh Loc Act Env} {s t : State ι Sh Loc}

theorem System.step_task {i : ι} {a : Act} (h : S.step s (.task i a) = some t) :
    ∃ sh l, S.task i s.shared (s.loc i) a = some (sh, l) ∧ t = s.move i sh l := by
  simp only [System.step, Option.map_eq_some_iff] at h
  obtain ⟨⟨sh, l⟩, h, rfl⟩ := h
  exact ⟨sh, l, h, rfl⟩

theorem System.step_env {e : Env} (h : S.step s (.env e) = some t) :
    ∃ sh, S.env s.shared e = some sh ∧ t = { s with shared := sh } := by
  simp only [System.step, Option.map_eq_some_iff] at h
  obtain ⟨sh, h, rfl⟩ := h
  exact ⟨sh, h, rfl⟩

end

/-- A task takes one more step, which meets the condition of the run. -/
theorem System.run_move_of [DecidableEq ι] {S : System ι Sh Loc Act Env} {s u : State ι Sh Loc}
    {C : State ι Sh Loc → Label ι Act Env → Prop} {as : List (Label ι Act Env)} {i : ι} {a : Act}
    {sh sh' : Sh} {l l' : Loc} (r : Run S.step C s as (u.move i sh l))
    (c : C (u.move i sh l) (.task i a)) (h : S.task i sh l a = some (sh', l')) :
    Run S.step C s (as ++ [.task i a]) (u.move i sh' l') :=
  r.snoc c (by simp [System.step, h])

/-! ### Proof outlines -/

/-- What is asserted of the store, of each task and of each two tasks. -/
structure Outline (ι Sh Loc : Type) where
  shared : Sh → Prop
  own : ι → Sh → Loc → Prop
  pair : ι → Sh → Loc → ι → Loc → Prop

/-- The assertions hold together. -/
structure Outline.Holds (O : Outline ι Sh Loc) (s : State ι Sh Loc) : Prop where
  shared : O.shared s.shared
  own : ∀ i, O.own i s.shared (s.loc i)
  pair : ∀ i j, i ≠ j → O.pair i s.shared (s.loc i) j (s.loc j)

/-- The assertions are kept by every step that meets `C`: by a step of a task, its own and
those of every other task (freedom from interference). -/
structure Outline.Kept (O : Outline ι Sh Loc) (S : System ι Sh Loc Act Env)
    (C : State ι Sh Loc → Label ι Act Env → Prop) : Prop where
  task : ∀ {s : State ι Sh Loc} {i : ι} {a : Act} {sh : Sh} {l : Loc}, O.Holds s →
    C s (.task i a) → S.task i s.shared (s.loc i) a = some (sh, l) →
      O.shared sh ∧ O.own i sh l ∧
      (∀ j, j ≠ i → O.own j sh (s.loc j) ∧ O.pair i sh l j (s.loc j) ∧
        O.pair j sh (s.loc j) i l) ∧
      ∀ j k, j ≠ i → k ≠ i → j ≠ k → O.pair j sh (s.loc j) k (s.loc k)
  env : ∀ {s : State ι Sh Loc} {e : Env} {sh : Sh}, O.Holds s → C s (.env e) →
    S.env s.shared e = some sh → O.Holds { s with shared := sh }

/-- **The interleaving rule.**  An outline that holds at the start and is kept by every step
that meets `C` holds wherever a run that meets `C` ends. -/
theorem Outline.Kept.holds_of_run [DecidableEq ι] {O : Outline ι Sh Loc}
    {S : System ι Sh Loc Act Env} {C : State ι Sh Loc → Label ι Act Env → Prop}
    {s t : State ι Sh Loc} {as : List (Label ι Act Env)} (hk : O.Kept S C) (h0 : O.Holds s)
    (r : Run S.step C s as t) : O.Holds t := by
  refine Run.invariant h0 (fun u a u' hu hC hstep => ?_) r
  cases a with
  | env e =>
    obtain ⟨sh, h, rfl⟩ := System.step_env hstep
    exact hk.env hu hC h
  | task i a =>
    obtain ⟨sh, l, h, rfl⟩ := System.step_task hstep
    obtain ⟨hs, ho, hj, hjk⟩ := hk.task hu hC h
    refine ⟨hs, fun j => ?_, fun j k hne => ?_⟩
    · by_cases e : j = i
      · subst e; simpa using ho
      · simpa [State.move_loc_of_ne _ e] using (hj j e).1
    · by_cases e : j = i
      · subst e
        have hk' : k ≠ j := fun h => hne h.symm
        simpa [State.move_loc_of_ne _ hk'] using (hj k hk').2.1
      · by_cases e' : k = i
        · subst e'
          simpa [State.move_loc_of_ne _ e] using (hj j e).2.2
        · simpa [State.move_loc_of_ne _ e, State.move_loc_of_ne _ e'] using hjk j k e e' hne

/-! ### One after another -/

/-- The tasks of a list one after another, each by any number of its moves. -/
inductive Serial {σ : Type} (move : ι → σ → σ → Prop) (s₀ : σ) : List ι → σ → Prop where
  | nil : Serial move s₀ [] s₀
  | snoc {order : List ι} {s t : σ} {i : ι} (h : Serial move s₀ order s)
      (turn : Relation.ReflTransGen (move i) s t) : Serial move s₀ (order ++ [i]) t

variable {σ : Type} {move : ι → σ → σ → Prop} {s₀ s t : σ} {order : List ι} {i : ι}

/-- The next task, before its first move. -/
theorem Serial.start (h : Serial move s₀ order s) (i : ι) : Serial move s₀ (order ++ [i]) s :=
  .snoc h .refl

/-- One more move of the last task. -/
theorem Serial.move_last (h : Serial move s₀ order s) (hlast : order.getLast? = some i)
    (hmove : move i s t) : Serial move s₀ order t := by
  cases h with
  | nil => cases hlast
  | snoc h turn =>
    rw [List.getLast?_concat] at hlast
    cases hlast
    exact .snoc h (turn.tail hmove)

end Async
