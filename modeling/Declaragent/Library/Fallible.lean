
/-!
# Library — steps that may fail

A step makes a new state of a state, or fails and leaves the state alone.  Of a sequence of steps
that stops at the first failure, what was done before stays.

* `Spec`: when a computation succeeds, and what then holds of what it returns.
* `perform_result`: whether a sequence of steps fails, as if the state were lost with a failure.
* `perform_keeps`: what every step keeps holds of the state that is left.
-/

namespace Fallible

variable {ε α β σ : Type}

/-! ### One computation -/

/-- The computation succeeds exactly under the condition, and what it returns is as described. -/
structure Spec (condition : Prop) (returned : α → Prop) (x : Except ε α) : Prop where
  succeeds : condition → ∃ a, x = .ok a
  spec : ∀ a, x = .ok a → condition ∧ returned a

theorem Spec.ok {returned : α → Prop} {a : α} (h : returned a) :
    Spec True returned (.ok a : Except ε α) where
  succeeds _ := ⟨a, rfl⟩
  spec _ eq := by
    cases eq
    exact ⟨trivial, h⟩

theorem Spec.error {returned : α → Prop} {e : ε} : Spec False returned (.error e) where
  succeeds h := h.elim
  spec _ eq := by cases eq

theorem Spec.congr {c c' : Prop} {Q : α → Prop} {x : Except ε α} (h : Spec c Q x)
    (same : c ↔ c') : Spec c' Q x where
  succeeds cond := h.succeeds (same.mpr cond)
  spec a eq := ⟨same.mp (h.spec a eq).1, (h.spec a eq).2⟩

theorem Spec.imp {c : Prop} {Q Q' : α → Prop} {x : Except ε α} (h : Spec c Q x)
    (weaker : ∀ a, Q a → Q' a) : Spec c Q' x where
  succeeds := h.succeeds
  spec a eq := ⟨(h.spec a eq).1, weaker a (h.spec a eq).2⟩

theorem Spec.also {c : Prop} {Q : α → Prop} {x : Except ε α} (h : Spec c Q x) :
    Spec c (fun a => c ∧ Q a) x where
  succeeds := h.succeeds
  spec a eq := ⟨(h.spec a eq).1, h.spec a eq⟩

theorem Spec.bind {c c' : Prop} {Q : α → Prop} {Q' : β → Prop} {x : Except ε α}
    {f : α → Except ε β} (h : Spec c Q x) (more : ∀ a, Q a → Spec c' Q' (f a)) :
    Spec (c ∧ c') Q' (x >>= f) where
  succeeds cond := by
    obtain ⟨a, rfl⟩ := h.succeeds cond.1
    exact (more a (h.spec a rfl).2).succeeds cond.2
  spec b eq := by
    cases x with
    | error e => cases eq
    | ok a =>
      obtain ⟨cond, returned⟩ := h.spec a rfl
      obtain ⟨cond', returned'⟩ := (more a returned).spec b eq
      exact ⟨⟨cond, cond'⟩, returned'⟩

/-! ### A sequence of steps -/

/-- How a sequence of steps ended, with the state that is left. -/
structure Ended (ε σ : Type) where
  failure : Option ε
  state : σ

def Ended.result (ended : Ended ε σ) : Except ε σ :=
  match ended.failure with
  | none => .ok ended.state
  | some e => .error e

def perform : List (σ → Except ε σ) → σ → Ended ε σ
  | [], s => ⟨none, s⟩
  | step :: steps, s =>
    match step s with
    | .ok s' => perform steps s'
    | .error e => ⟨some e, s⟩

variable {step : σ → Except ε σ} {steps : List (σ → Except ε σ)} {s s' : σ}

theorem perform_cons_ok (h : step s = .ok s') : perform (step :: steps) s = perform steps s' := by
  rw [perform, h]

theorem perform_cons_error {e : ε} (h : step s = .error e) :
    perform (step :: steps) s = ⟨some e, s⟩ := by
  rw [perform, h]

theorem perform_result (steps : List (σ → Except ε σ)) (s : σ) :
    (perform steps s).result = steps.foldlM (fun s step => step s) s := by
  induction steps generalizing s with
  | nil => rfl
  | cons step steps ih =>
    rw [List.foldlM_cons]
    cases eq : step s with
    | ok s' =>
      rw [perform_cons_ok eq]
      exact ih s'
    | error e =>
      rw [perform_cons_error eq]
      rfl

theorem failure_eq_none_iff {ended : Ended ε σ} {c : Prop} {Q : σ → Prop}
    (h : Spec c Q ended.result) : ended.failure = none ↔ c := by
  obtain ⟨failure, state⟩ := ended
  cases failure with
  | none => exact iff_of_true rfl (h.spec state rfl).1
  | some e =>
    refine iff_of_false (fun eq => by cases eq) fun cond => ?_
    obtain ⟨s', eq⟩ := h.succeeds cond
    cases eq

theorem perform_keeps {P : σ → Prop} (keeps : ∀ step ∈ steps, ∀ s s', step s = .ok s' → P s → P s')
    (h : P s) : P (perform steps s).state := by
  induction steps generalizing s with
  | nil => exact h
  | cons step steps ih =>
    rw [List.forall_mem_cons] at keeps
    cases eq : step s with
    | ok s' =>
      rw [perform_cons_ok eq]
      exact ih keeps.2 (keeps.1 s s' eq h)
    | error e =>
      rw [perform_cons_error eq]
      exact h

end Fallible
