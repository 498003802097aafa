import Mathlib.Logic.Relation

/-!
# Library — ancestry

Each name has at most one parent, and some names are known.  The line of a name goes from it to its
parent, and on to a name that has none.

* `Line.unique`: a name has one line at most.
* `Line.not_stray`: a name with a line does not come back to itself, and every ancestor is known.
-/

namespace Ancestry
open Relation (TransGen)

variable {α : Type}

section
variable (parent : α → Option α) (known : α → Prop)

def Parent (a b : α) : Prop := parent a = some b

/-- The line of a name, the nearest first. -/
inductive Line : α → List α → Prop
  | first {a : α} (hnone : parent a = none) : Line a [a]
  | after {a b : α} {as : List α} (hsome : parent a = some b) (hknown : known b)
      (hline : Line b as) : Line a (a :: as)

/-- An ancestor is the name itself, or one that nobody knows. -/
def Stray (a : α) : Prop := ∃ b, TransGen (Parent parent) a b ∧ (b = a ∨ ¬ known b)

end

variable {parent : α → Option α} {known : α → Prop} {a b : α} {as bs : List α}

theorem Line.unique (h : Line parent known a as) (h' : Line parent known a bs) : as = bs := by
  induction h generalizing bs with
  | first hnone =>
    cases h' with
    | first => rfl
    | after hsome => rw [hnone] at hsome; cases hsome
  | after hsome _ _ ih =>
    cases h' with
    | first hnone => rw [hnone] at hsome; cases hsome
    | after hsome' _ hline =>
      obtain rfl := Option.some.inj (hsome.symm.trans hsome')
      rw [ih hline]

theorem Line.head (h : Line parent known a as) : as.head? = some a := by cases h <;> rfl

/-- The line of the parent is what comes after the name. -/
theorem Line.above (h : Line parent known a as) (hab : Parent parent a b) :
    known b ∧ ∃ bs, as = a :: bs ∧ Line parent known b bs := by
  cases h with
  | first hnone => rw [Parent, hnone] at hab; cases hab
  | after hsome hknown hline =>
    obtain rfl := Option.some.inj (hsome.symm.trans hab)
    exact ⟨hknown, _, rfl, hline⟩

/-- Every ancestor is known, and its line is shorter. -/
theorem Line.ancestor (h : Line parent known a as) (hab : TransGen (Parent parent) a b) :
    known b ∧ ∃ bs, Line parent known b bs ∧ bs.length < as.length := by
  induction hab with
  | single hab =>
    obtain ⟨hknown, bs, rfl, hline⟩ := h.above hab
    exact ⟨hknown, bs, hline, Nat.lt_succ_self _⟩
  | tail _ hbc ih =>
    obtain ⟨-, bs, hline, hlt⟩ := ih
    obtain ⟨hknown, cs, rfl, habove⟩ := hline.above hbc
    exact ⟨hknown, cs, habove, Nat.lt_trans (Nat.lt_succ_self _) hlt⟩

theorem Line.not_stray (h : Line parent known a as) : ¬ Stray parent known a := by
  rintro ⟨b, hab, hb⟩
  obtain ⟨hknown, bs, hline, hlt⟩ := h.ancestor hab
  rcases hb with rfl | hb
  · rw [h.unique hline] at hlt
    exact Nat.lt_irrefl _ hlt
  · exact hb hknown

/-- The names of a line are known where its first is. -/
theorem Line.known_of_mem (h : Line parent known a as) (ha : known a) : ∀ b ∈ as, known b := by
  induction h with
  | first =>
    intro b hb
    rwa [List.mem_singleton.mp hb]
  | after _ hknown _ ih =>
    intro b hb
    rcases List.mem_cons.mp hb with rfl | hb
    · exact ha
    · exact ih hknown b hb

/-- The line is the same wherever the parents and the known names are. -/
theorem Line.congr {parent' : α → Option α} {known' : α → Prop} (h : Line parent known a as)
    (hparent : ∀ a, parent' a = parent a) (hknown : ∀ a, known a → known' a) :
    Line parent' known' a as := by
  induction h with
  | first hnone => exact .first ((hparent _).trans hnone)
  | after hsome hk _ ih => exact .after ((hparent _).trans hsome) (hknown _ hk) ih

end Ancestry
