import Declaragent.Library.Search
import Mathlib.Algebra.Ring.Parity

/-!
# Library — texts with fences

A fence is a word that opens a block and closes it.  The fences of a text are its occurrences from
the left, each behind the one before.  Where they are paired, a text is blocks, each from a fence to
the next, with texts in between.

* `Fenced.paired`: a text that is put together of blocks and of pieces of the texts in between has
  paired fences.
* `Fenced.left`, `Fenced.right`: so have its first pieces, and its last ones.
-/

namespace Fences
open Search

variable {α : Type*} [DecidableEq α] (fence : List α)

/-- The fences of the text are paired. -/
def Paired (text : List α) : Prop := Odd (pieces fence text).length

instance (text : List α) : Decidable (Paired fence text) :=
  inferInstanceAs (Decidable (Odd _))

/-- What stands from an unpaired fence on. -/
def unpaired (text : List α) : List α :=
  if Paired fence text then [] else fence ++ (pieces fence text).getLastD []

/-- Up to its end, the text before a fence. -/
def Lead (text : List α) : Prop := First fence (text ++ fence) text []

/-- The text has no fence. -/
def Plain (text : List α) : Prop := ¬ fence <:+: text

/-- The block is a fence, what it holds and the next fence. -/
def Block (block : List α) : Prop := ∃ inside, Lead fence inside ∧ block = fence ++ inside ++ fence

/-- The pieces are blocks, and pieces of the texts in between; the first of these texts goes on from
what came before. -/
inductive Fenced : List α → List (List α) → Prop where
  | done {before : List α} : Plain fence before → Fenced before []
  | piece {before piece : List α} {pieces : List (List α)} :
      Fenced (before ++ piece) pieces → Fenced before (piece :: pieces)
  | block {before block : List α} {pieces : List (List α)} :
      Lead fence before → Block fence block → Fenced [] pieces → Fenced before (block :: pieces)

variable {fence}

/-! ### What leads up to a fence -/

omit [DecidableEq α] in
theorem Lead.suffix {front text : List α} (h : Lead fence (front ++ text)) : Lead fence text := by
  refine ⟨by rw [List.append_nil], fun before after htext => ?_⟩
  have hle := h.2 (front ++ before) after (by
    rw [List.append_assoc, htext]
    simp only [List.append_assoc])
  rw [List.length_append, List.length_append] at hle
  exact Nat.le_of_add_le_add_left hle

omit [DecidableEq α] in
theorem Lead.plain (hfence : fence ≠ []) {text : List α} (h : Lead fence text) :
    Plain fence text := by
  rintro ⟨before, after, rfl⟩
  have hle := h.2 before (after ++ fence) (by simp only [List.append_assoc])
  have hpos := List.length_pos_of_ne_nil hfence
  simp only [List.length_append] at hle
  omega

omit [DecidableEq α] in
theorem Plain.left {text more : List α} (h : Plain fence (text ++ more)) : Plain fence text :=
  fun hin => h (hin.trans (List.prefix_append text more).isInfix)

omit [DecidableEq α] in
theorem Plain.right {front text : List α} (h : Plain fence (front ++ text)) : Plain fence text :=
  fun hin => h (hin.trans (List.suffix_append front text).isInfix)

omit [DecidableEq α] in
/-- A text without the characters of the fence can follow. -/
theorem Plain.append (hfence : fence ≠ []) {text more : List α} (h : Plain fence text)
    (hmore : ∀ c ∈ more, c ∉ fence) : Plain fence (text ++ more) := by
  rintro ⟨before, after, heq⟩
  rcases List.append_eq_append_iff.mp heq with ⟨rest, htext, -⟩ | ⟨rest, hfront, htail⟩
  · exact h ⟨before, rest, htext.symm⟩
  · rcases List.eq_nil_or_concat rest with rfl | ⟨init, last, rfl⟩
    · rw [List.append_nil] at hfront
      exact h ⟨before, [], by rw [List.append_nil, hfront]⟩
    · obtain ⟨init', last', rfl⟩ := (List.eq_nil_or_concat fence).resolve_left hfence
      have hlast : last' = last := by
        have hend := congrArg List.getLast? hfront
        simpa [List.concat_eq_append, ← List.append_assoc] using hend
      refine hmore last ?_ ?_
      · rw [htail]
        simp [List.concat_eq_append]
      · rw [← hlast]
        simp [List.concat_eq_append]

theorem cut_lead {text : List α} (h : Lead fence text) (more : List α) :
    cut fence (text ++ fence ++ more) = some (text, more) :=
  cut_eq_some_iff.mpr (h.append more)

theorem lead_of_cut {text before after : List α} (h : cut fence text = some (before, after)) :
    Lead fence before := by
  obtain ⟨rfl, hfirst⟩ := cut_eq_some_iff.mp h
  refine ⟨by rw [List.append_nil], fun before' after' htext => ?_⟩
  exact hfirst before' (after' ++ after) (by rw [htext]; simp only [List.append_assoc])

/-! ### Pieces of a text -/

namespace Fenced
variable {before : List α} {texts more : List (List α)}

omit [DecidableEq α] in
theorem plain (hfence : fence ≠ []) (h : Fenced fence before texts) : Plain fence before := by
  induction h with
  | done hplain => exact hplain
  | piece _ ih => exact ih.left
  | block hlead _ _ _ => exact hlead.plain hfence

omit [DecidableEq α] in
theorem suffix {front : List α} (h : Fenced fence (front ++ before) texts) :
    Fenced fence before texts := by
  induction texts generalizing before with
  | nil =>
    cases h with
    | done hplain => exact .done hplain.right
  | cons text texts ih =>
    cases h with
    | piece hrest =>
      rw [List.append_assoc] at hrest
      exact .piece (ih hrest)
    | block hlead hblock hrest => exact .block hlead.suffix hblock hrest

omit [DecidableEq α] in
/-- The first pieces. -/
theorem left (hfence : fence ≠ []) (h : Fenced fence before (texts ++ more)) :
    Fenced fence before texts := by
  induction texts generalizing before with
  | nil => exact .done (h.plain hfence)
  | cons text texts ih =>
    cases h with
    | piece hrest => exact .piece (ih hrest)
    | block hlead hblock hrest => exact .block hlead hblock (ih hrest)

omit [DecidableEq α] in
/-- The last pieces. -/
theorem right (h : Fenced fence [] (texts ++ more)) : Fenced fence [] more := by
  induction texts with
  | nil => exact h
  | cons text texts ih =>
    cases h with
    | piece hrest =>
      have hnil : Fenced fence [] (texts ++ more) :=
        suffix (by rw [List.append_nil]; exact hrest)
      exact ih hnil
    | block _ _ hrest => exact ih hrest

omit [DecidableEq α] in
/-- A text in between may be cut into any pieces. -/
theorem cut {parts : List (List α)} (h : Fenced fence (before ++ parts.flatten) texts) :
    Fenced fence before (parts ++ texts) := by
  induction parts generalizing before with
  | nil => simpa using h
  | cons part parts ih =>
    rw [List.flatten_cons, ← List.append_assoc] at h
    exact .piece (ih h)

omit [DecidableEq α] in
/-- A text without the characters of the fence can follow. -/
theorem concat (hfence : fence ≠ []) (h : Fenced fence before texts) {text : List α}
    (htext : ∀ c ∈ text, c ∉ fence) : Fenced fence before (texts ++ [text]) := by
  induction h with
  | done hplain => exact .piece (.done (hplain.append hfence htext))
  | piece _ ih => exact .piece ih
  | block hlead hblock _ ih => exact .block hlead hblock ih

/-- **Paired fences.** -/
theorem paired (hfence : fence ≠ []) (h : Fenced fence before texts) :
    Paired fence (before ++ texts.flatten) := by
  induction h with
  | done hplain =>
    rw [List.flatten_nil, List.append_nil, Paired,
      pieces_of_none (cut_eq_none_iff.mpr hplain)]
    exact odd_one
  | piece _ ih =>
    rw [List.flatten_cons, ← List.append_assoc]
    exact ih
  | @block before block texts hlead hblock _ ih =>
    obtain ⟨inside, hinside, rfl⟩ := hblock
    have hfirst : Search.cut fence (before ++ ((fence ++ inside ++ fence) :: texts).flatten) =
        some (before, inside ++ fence ++ texts.flatten) := by
      rw [List.flatten_cons, ← cut_lead hlead]
      simp only [List.append_assoc]
    rw [Paired, pieces_of_cut hfence hfirst, pieces_of_cut hfence (cut_lead hinside _)]
    have hodd : Odd (pieces fence texts.flatten).length := ih
    exact hodd.add_even even_two

end Fenced

/-! ### What an unpaired fence leaves -/

section
variable {text before rest inside after : List α}

theorem unpaired_of_plain (h : cut fence text = none) : unpaired fence text = [] := by
  refine if_pos ?_
  rw [Paired, pieces_of_none h]
  exact odd_one

theorem unpaired_of_open (hfence : fence ≠ []) (h : cut fence text = some (before, rest))
    (hrest : cut fence rest = none) : unpaired fence text = fence ++ rest := by
  have hpieces : pieces fence text = [before, rest] := by
    rw [pieces_of_cut hfence h, pieces_of_none hrest]
  have hodd : ¬ Paired fence text := by
    rw [Paired, hpieces]
    exact Nat.not_odd_iff_even.mpr even_two
  rw [unpaired, if_neg hodd, hpieces]
  rfl

theorem unpaired_of_block (hfence : fence ≠ []) (h : cut fence text = some (before, rest))
    (hrest : cut fence rest = some (inside, after)) :
    unpaired fence text = unpaired fence after := by
  have hpieces : pieces fence text = before :: inside :: pieces fence after := by
    rw [pieces_of_cut hfence h, pieces_of_cut hfence hrest]
  have hne : pieces fence after ≠ [] := by
    cases hcut : cut fence after with
    | none => rw [pieces_of_none hcut]; exact List.cons_ne_nil _ _
    | some p => rw [pieces_of_cut hfence hcut]; exact List.cons_ne_nil _ _
  have hpairs : Paired fence text ↔ Paired fence after := by
    rw [Paired, Paired, hpieces]
    have hodd : Odd ((pieces fence after).length + 2) ↔ Odd (pieces fence after).length :=
      Nat.odd_add.trans (iff_true_right even_two)
    exact hodd
  have hlast : (pieces fence text).getLastD [] = (pieces fence after).getLastD [] := by
    obtain ⟨init, last, hlast⟩ := (List.eq_nil_or_concat (pieces fence after)).resolve_left hne
    have hconcat : before :: inside :: (init ++ [last]) = (before :: inside :: init) ++ [last] := rfl
    rw [hpieces, hlast, List.concat_eq_append, hconcat, List.getLastD_concat, List.getLastD_concat]
  rw [unpaired, unpaired, hlast]
  exact if_congr hpairs rfl rfl

theorem paired_of_unpaired (hfence : fence ≠ []) (h : unpaired fence text = []) :
    Paired fence text := by
  by_contra hodd
  rw [unpaired, if_neg hodd] at h
  exact hfence (List.append_eq_nil_iff.mp h).1

end

end Fences
