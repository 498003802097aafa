import Mathlib.Data.List.Basic

/-!
# Library — transition systems that run

A system is a partial step function `step : σ → α → Option σ`: a label `a` names what happens
next, and `none` says that it cannot happen in this state.  A list of labels is a schedule;
`exec` replays it, so a schedule can be tried on concrete states.

`Run step C s as t` is a run from `s` to `t` along the schedule `as` in which every step meets
the condition `C`: `C` holds of each label at the state it is taken in.  `Run.invariant` is the
induction over such runs, once and for all; a run that is only replayed meets `Any`.
-/

namespace Transition

universe u v
variable {σ : Type u} {α : Type v}

/-- Replay a schedule. -/
def exec (step : σ → α → Option σ) : σ → List α → Option σ
  | s, [] => some s
  | s, a :: as => (step s a).bind fun t => exec step t as

/-- The condition every step meets. -/
def Any (_ : σ) (_ : α) : Prop := True

/-- The runs from `s` in which each step meets `C` at the state before it. -/
inductive Run (step : σ → α → Option σ) (C : σ → α → Prop) (s : σ) : List α → σ → Prop where
  | nil : Run step C s [] s
  | snoc {as : List α} {t t' : σ} {a : α}
      (r : Run step C s as t) (c : C t a) (h : step t a = some t') : Run step C s (as ++ [a]) t'

variable {step : σ → α → Option σ} {C : σ → α → Prop} {s t t' : σ} {as bs : List α}

/-- **The run rule.**  What holds at the start and is kept by every step that meets `C` holds
wherever a run that meets `C` ends. -/
theorem Run.invariant {P : σ → Prop} (h0 : P s)
    (hstep : ∀ t a t', P t → C t a → step t a = some t' → P t') (r : Run step C s as t) :
    P t := by
  induction r with
  | nil => exact h0
  | snoc _ c h ih => exact hstep _ _ _ ih c h

/-- A run that meets `C` meets `C'`, where `C` gives `C'` on the states of an invariant. -/
theorem Run.mono {C' : σ → α → Prop} {P : σ → Prop} (h0 : P s)
    (h : ∀ t a t', P t → step t a = some t' → P t' ∧ (C t a → C' t a)) (r : Run step C s as t) :
    Run step C' s as t := by
  have hP : P t ∧ Run step C' s as t := by
    induction r with
    | nil => exact ⟨h0, .nil⟩
    | snoc _ c hstep ih =>
      obtain ⟨hP, hC⟩ := h _ _ _ ih.1 hstep
      exact ⟨hP, .snoc ih.2 (hC c) hstep⟩
  exact hP.2

/-- The same runs meet two conditions that agree on the states of an invariant. -/
theorem Run.congr {C' : σ → α → Prop} {P : σ → Prop} (h0 : P s)
    (h : ∀ t a t', P t → step t a = some t' → P t' ∧ (C t a ↔ C' t a)) :
    Run step C s as t ↔ Run step C' s as t :=
  ⟨.mono h0 fun t a t' ht hstep => (h t a t' ht hstep).imp_right Iff.mp,
    .mono h0 fun t a t' ht hstep => (h t a t' ht hstep).imp_right Iff.mpr⟩

/-- The same runs meet two conditions that agree while an invariant of one of them holds. -/
theorem Run.congr_of {C' : σ → α → Prop} {P : σ → Prop} (h0 : P s)
    (hC : ∀ t a t', P t → step t a = some t' → (C t a ↔ C' t a))
    (hP : ∀ t a t', P t → C t a → step t a = some t' → P t') :
    Run step C s as t ↔ Run step C' s as t := by
  constructor
  · intro r
    have hr : P t ∧ Run step C' s as t := by
      induction r with
      | nil => exact ⟨h0, .nil⟩
      | snoc _ c hstep ih =>
        exact ⟨hP _ _ _ ih.1 c hstep, .snoc ih.2 ((hC _ _ _ ih.1 hstep).mp c) hstep⟩
    exact hr.2
  · intro r
    have hr : P t ∧ Run step C s as t := by
      induction r with
      | nil => exact ⟨h0, .nil⟩
      | snoc _ c hstep ih =>
        have hc := (hC _ _ _ ih.1 hstep).mpr c
        exact ⟨hP _ _ _ ih.1 hc hstep, .snoc ih.2 hc hstep⟩
    exact hr.2

/-- Wherever the step leads, the states before and after it are so related. -/
def Leads (step : σ → α → Option σ) (R : σ → σ → Prop) (s : σ) (a : α) : Prop :=
  ∀ t, step s a = some t → R s t

/-- The steps lead to states so related in exactly the runs that meet `C`, where a step from a
state of an invariant does so exactly when it meets `C`, and then keeps the invariant. -/
theorem Run.leads_iff {R : σ → σ → Prop} {P : σ → Prop} (h0 : P s)
    (h : ∀ t a t', P t → step t a = some t' → (R t t' ↔ C t a) ∧ (R t t' → P t')) :
    Run step (Leads step R) s as t ↔ Run step C s as t := by
  refine Run.congr_of h0 (fun t a t' ht hstep => ?_)
    fun t a t' ht hleads hstep => (h t a t' ht hstep).2 (hleads t' hstep)
  constructor
  · intro hleads
    exact (h t a t' ht hstep).1.mp (hleads t' hstep)
  · intro hC t'' hstep'
    exact (h t a t'' ht hstep').1.mpr hC

/-- A property that a step keeps exactly when it meets `C` holds exactly where the run meets
`C`. -/
theorem Run.meets_iff {P : σ → Prop} (h0 : P s)
    (h : ∀ t a t', step t a = some t' → (P t' ↔ P t ∧ C t a)) (r : Run step Any s as t) :
    P t ↔ Run step C s as t := by
  constructor
  · intro hP
    induction r with
    | nil => exact .nil
    | snoc _ _ hstep ih =>
      obtain ⟨hP', hC⟩ := (h _ _ _ hstep).mp hP
      exact .snoc (ih hP') hC hstep
  · exact Run.invariant h0 fun t a t' hP hC hstep => (h t a t' hstep).mpr ⟨hP, hC⟩

/-- The same, where that is so on the states of an invariant. -/
theorem Run.meets_iff_of {P I : σ → Prop} (hI : I s) (h0 : P s)
    (h : ∀ t a t', I t → step t a = some t' → I t' ∧ (P t' ↔ P t ∧ C t a))
    (r : Run step Any s as t) : P t ↔ Run step C s as t := by
  have hkept : I t ∧ (P t ↔ Run step C s as t) := by
    induction r with
    | nil => exact ⟨hI, fun _ => .nil, fun _ => h0⟩
    | snoc _ _ hstep ih =>
      obtain ⟨hI', hP⟩ := h _ _ _ ih.1 hstep
      refine ⟨hI', fun hP' => ?_, fun r' => ?_⟩
      · obtain ⟨hPt, hC⟩ := hP.mp hP'
        exact .snoc (ih.2.mp hPt) hC hstep
      · have hrun := Run.invariant (P := fun u => I u ∧ P u) ⟨hI, h0⟩
          (fun u a u' hu hC hu' =>
            (h u a u' hu.1 hu').imp_right fun hiff => hiff.mpr ⟨hu.2, hC⟩) r'
        exact hrun.2
  exact hkept.2

theorem Run.trans (r₁ : Run step C s as t) (r₂ : Run step C t bs t') :
    Run step C s (as ++ bs) t' := by
  induction r₂ with
  | nil => simpa using r₁
  | snoc _ c h ih => rw [← List.append_assoc]; exact .snoc ih c h

theorem Run.cons {a : α} (c : C s a) (h : step s a = some t) (r : Run step C t as t') :
    Run step C s (a :: as) t' :=
  Run.trans (.snoc .nil c h) r

/-- The step that is refused unless it meets `C`. -/
def guarded (step : σ → α → Option σ) (C : σ → α → Prop) [∀ s a, Decidable (C s a)]
    (s : σ) (a : α) : Option σ :=
  if C s a then step s a else none

/-- Replaying a schedule through the guarded step gives a run that meets the condition. -/
theorem Run.of_exec [∀ s a, Decidable (C s a)] :
    ∀ {as : List α} {s t : σ}, exec (guarded step C) s as = some t → Run step C s as t
  | [], _, _, h => by cases h; exact .nil
  | a :: as, s, t, h => by
      simp only [exec, Option.bind_eq_some_iff] at h
      obtain ⟨s', h₁, h₂⟩ := h
      unfold guarded at h₁
      split at h₁
      · exact Run.cons ‹_› h₁ (Run.of_exec h₂)
      · cases h₁

/-- Replaying a schedule gives a run. -/
theorem Run.any_of_exec :
    ∀ {as : List α} {s t : σ}, exec step s as = some t → Run step Any s as t
  | [], _, _, h => by cases h; exact .nil
  | a :: as, s, t, h => by
      simp only [exec, Option.bind_eq_some_iff] at h
      obtain ⟨s', h₁, h₂⟩ := h
      exact Run.cons trivial h₁ (Run.any_of_exec h₂)

/-- A replay that ends in a state where `p` holds, as a run. -/
theorem Run.any_of_replay {p : σ → Bool} (h : (exec step s as).any p = true) :
    ∃ t, Run step Any s as t ∧ p t = true := by
  cases ht : exec step s as with
  | none => rw [ht] at h; cases h
  | some t => rw [ht] at h; exact ⟨t, .any_of_exec ht, h⟩

/-- A guarded replay that ends in a state where `p` holds, as a run that meets the guard. -/
theorem Run.of_replay [∀ s a, Decidable (C s a)] {p : σ → Bool}
    (h : (exec (guarded step C) s as).any p = true) : ∃ t, Run step C s as t ∧ p t = true := by
  cases ht : exec (guarded step C) s as with
  | none => rw [ht] at h; cases h
  | some t => rw [ht] at h; exact ⟨t, .of_exec ht, h⟩

end Transition
