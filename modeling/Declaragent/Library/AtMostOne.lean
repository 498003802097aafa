import Mathlib.Data.Nat.Basic
import Mathlib.Logic.Function.Basic
import Mathlib.Tactic.ByContra

/-!
# Library — at most one for each key

Components `k : κ` hold a number of things each, `count k` of them, and belong to a key each, such
as the resource that they share.  `AtMostOne key count` says that over all components of one key
there is at most one thing.

* `AtMostOne.update_iff`: what a component may come to hold.
* `AtMostOne.update`: a component may always come to hold less.
-/

universe u v
variable {κ : Type u} {τ : Type v} {key : κ → τ} {count : κ → Nat}

structure AtMostOne (key : κ → τ) (count : κ → Nat) : Prop where
  own : ∀ k, count k ≤ 1
  others : ∀ k k', k' ≠ k → key k' = key k → count k ≠ 0 → count k' = 0

namespace AtMostOne

theorem zero (key : κ → τ) : AtMostOne key fun _ => 0 :=
  ⟨fun _ => Nat.zero_le 1, fun _ _ _ _ _ => rfl⟩

variable [DecidableEq κ]

theorem update_iff (h : AtMostOne key count) (k : κ) (n : Nat) :
    AtMostOne key (Function.update count k n) ↔
      n ≤ 1 ∧ (n ≠ 0 → ∀ k', k' ≠ k → key k' = key k → count k' = 0) := by
  constructor
  · intro hnew
    refine ⟨?_, fun hne k' hk' hsame => ?_⟩
    · have hown := hnew.own k
      rwa [Function.update_self] at hown
    · have hothers := hnew.others k k' hk' hsame
      rw [Function.update_self, Function.update_of_ne hk'] at hothers
      exact hothers hne
  · rintro ⟨hle, hothers⟩
    refine ⟨fun k' => ?_, fun k₁ k₂ hne hsame hcount => ?_⟩
    · by_cases e : k' = k
      · subst e
        rwa [Function.update_self]
      · rw [Function.update_of_ne e]
        exact h.own k'
    · by_cases e₁ : k₁ = k
      · subst e₁
        rw [Function.update_self] at hcount
        rw [Function.update_of_ne hne]
        exact hothers hcount k₂ hne hsame
      · rw [Function.update_of_ne e₁] at hcount
        by_cases e₂ : k₂ = k
        · subst e₂
          rw [Function.update_self]
          by_contra hn
          exact hcount (hothers hn k₁ e₁ hsame.symm)
        · rw [Function.update_of_ne e₂]
          exact h.others k₁ k₂ hne hsame hcount

/-- A component comes to hold no more than before. -/
theorem update (h : AtMostOne key count) {k : κ} {n : Nat} (hle : n ≤ count k) :
    AtMostOne key (Function.update count k n) := by
  refine (h.update_iff k n).mpr ⟨Nat.le_trans hle (h.own k), fun hn k' hk' hsame => ?_⟩
  have hne : count k ≠ 0 := fun e => hn (Nat.le_zero.mp (e ▸ hle))
  exact h.others k k' hk' hsame hne

end AtMostOne
