import Mathlib.Data.Nat.Cast.Order.Field
import Mathlib.Tactic.Linarith
import Mathlib.Tactic.Ring

/-!
# Library — metered grants

A bucket that holds `burst` tokens and is filled at a `rate` paces what is granted from it: in every
interval no more is granted than a full bucket and what flows into it meanwhile.

`Metered` is what such a bucket knows of its past: since any earlier time, the grants and the tokens
that are left are no more than a full bucket and what has flowed in.

* `Metered.refill`, `Metered.grant`: time passes, and a token is given for a grant.
* `Metered.conforms`: the bound for every interval.
-/

namespace Metering

variable {burst rate level level' now now' : ℚ} {grants : List ℚ}

/-- The grants of an interval. -/
def between (grants : List ℚ) (a b : ℚ) : Nat := grants.countP fun g => a ≤ g ∧ g ≤ b

/-- In every interval no more than a full bucket and what flows into it. -/
def Conforms (burst rate : ℚ) (grants : List ℚ) : Prop :=
  ∀ a b, a ≤ b → (between grants a b : ℚ) ≤ burst + rate * (b - a)

/-- The grants up to now, of a bucket at this level. -/
structure Metered (burst rate level now : ℚ) (grants : List ℚ) : Prop where
  past : ∀ g ∈ grants, g ≤ now
  since : ∀ a ≤ now, between grants a now + level ≤ burst + rate * (now - a)
  conforms : Conforms burst rate grants

theorem between_append (grants : List ℚ) (g a b : ℚ) :
    between (grants ++ [g]) a b = between grants a b + if a ≤ g ∧ g ≤ b then 1 else 0 := by
  simp [between, List.countP_append, List.countP_singleton]

theorem between_of_forall_lt {a : ℚ} (h : ∀ g ∈ grants, g < a) (b : ℚ) : between grants a b = 0 := by
  refine List.countP_eq_zero.mpr fun g hg hbetween => ?_
  have hle := (of_decide_eq_true hbetween).1
  exact absurd (h g hg) (not_lt.mpr hle)

/-- Later than the last grant, the end of the interval does not matter. -/
theorem between_of_forall_le {b b' : ℚ} (h : ∀ g ∈ grants, g ≤ b) (h' : ∀ g ∈ grants, g ≤ b')
    (a : ℚ) : between grants a b = between grants a b' := by
  refine List.countP_congr fun g hg => ?_
  simp only [h g hg, h' g hg]

/-- Grants that are met from some of the `ks`, each of which meets no more than `bound`. -/
theorem countP_le_of_each {α κ : Type*} [DecidableEq κ] (met : α → κ) (l : List α) {bound : ℚ}
    (ks : List κ) (p : α → Bool) (hmet : ∀ x ∈ l, p x → met x ∈ ks)
    (heach : ∀ k ∈ ks, ((l.countP fun x => p x && decide (met x = k) : Nat) : ℚ) ≤ bound) :
    (l.countP p : ℚ) ≤ ks.length * bound := by
  induction ks generalizing p with
  | nil =>
    have hnone : l.countP p = 0 :=
      List.countP_eq_zero.mpr fun x hx hpx => absurd (hmet x hx hpx) List.not_mem_nil
    simp [hnone]
  | cons k ks ih =>
    -- Those that `k` meets, and the others.
    have hsplit : l.countP p = (l.countP fun x => p x && decide (met x = k)) +
        l.countP fun x => p x && decide (met x ≠ k) := by
      simp only [List.countP_eq_countP_filter_add l p fun x => decide (met x = k),
        List.countP_filter, decide_not]
    have hrest : (l.countP (fun x => p x && decide (met x ≠ k)) : ℚ) ≤ ks.length * bound := by
      refine ih _ (fun x hx hpx => ?_) fun k' hk' => ?_
      · obtain ⟨hp, hne⟩ := Bool.and_eq_true_iff.mp hpx
        exact (List.mem_cons.mp (hmet x hx hp)).resolve_left (of_decide_eq_true hne)
      · refine le_trans (Nat.cast_le.mpr ?_) (heach k' (List.mem_cons_of_mem _ hk'))
        refine List.countP_mono_left fun x _ hx => ?_
        simp only [Bool.and_eq_true] at hx ⊢
        exact ⟨hx.1.1, hx.2⟩
    have hfirst := heach k List.mem_cons_self
    rw [hsplit, List.length_cons]
    push_cast
    linarith

/-- A full bucket. -/
theorem Metered.full (hburst : 0 ≤ burst) (hrate : 0 ≤ rate) (now : ℚ) :
    Metered burst rate burst now [] := by
  refine ⟨fun g hg => (by cases hg), fun a ha => ?_, fun a b hab => ?_⟩
  · have hflow := mul_nonneg hrate (sub_nonneg.mpr ha)
    simp only [between, List.countP_nil, Nat.cast_zero]
    linarith
  · have hflow := mul_nonneg hrate (sub_nonneg.mpr hab)
    simp only [between, List.countP_nil, Nat.cast_zero]
    linarith

/-- Time passes, and no more than what flows in meanwhile comes into the bucket. -/
theorem Metered.refill (hrate : 0 ≤ rate) (h : Metered burst rate level now grants)
    (hnow : now ≤ now') (hflow : level' ≤ level + rate * (now' - now)) (hburst : level' ≤ burst) :
    Metered burst rate level' now' grants := by
  have hpast : ∀ g ∈ grants, g ≤ now' := fun g hg => (h.past g hg).trans hnow
  refine ⟨hpast, fun a ha => ?_, h.conforms⟩
  rcases le_or_gt a now with hle | hlt
  · rw [between_of_forall_le hpast h.past a]
    have hsince := h.since a hle
    have hsum : rate * (now' - a) = rate * (now - a) + rate * (now' - now) := by ring
    rw [hsum]
    linarith
  · rw [between_of_forall_lt (fun g hg => (h.past g hg).trans_lt hlt)]
    have hlater := mul_nonneg hrate (sub_nonneg.mpr ha)
    rw [Nat.cast_zero]
    linarith

/-- A token is given for a grant. -/
theorem Metered.grant (hrate : 0 ≤ rate) (h : Metered burst rate level now grants)
    (hlevel : 1 ≤ level) (hle : level' ≤ level - 1) :
    Metered burst rate level' now (grants ++ [now]) := by
  refine ⟨fun g hg => ?_, fun a ha => ?_, fun a b hab => ?_⟩
  · rcases List.mem_append.mp hg with hg | hg
    · exact h.past g hg
    · exact le_of_eq (List.mem_singleton.mp hg)
  · have hsince := h.since a ha
    rw [between_append, if_pos ⟨ha, le_refl now⟩, Nat.cast_add, Nat.cast_one]
    linarith
  · rw [between_append]
    by_cases hnow : a ≤ now ∧ now ≤ b
    · -- the interval ends with this grant, or later
      rw [if_pos hnow, between_of_forall_le (fun g hg => (h.past g hg).trans hnow.2) h.past]
      have hsince := h.since a hnow.1
      have hlater := mul_le_mul_of_nonneg_left (sub_le_sub_right hnow.2 a) hrate
      rw [Nat.cast_add, Nat.cast_one]
      linarith
    · rw [if_neg hnow, Nat.add_zero]
      exact h.conforms a b hab

end Metering
