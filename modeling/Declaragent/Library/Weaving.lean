import Mathlib.Data.List.Basic

/-!
# Library — texts among words

Something that is put together of given texts, each of them once and in their order, and of words
from a list that may stand anywhere around them.

* `Woven.append`, `Woven.joined`: what is put together of such things is one.
-/

universe u

/-- The texts in their order, among words of the list. -/
inductive Woven {α : Type u} (words : List (List α)) : List (List α) → List α → Prop where
  | nil : Woven words [] []
  | word {word out : List α} {texts : List (List α)} :
      word ∈ words → Woven words texts out → Woven words texts (word ++ out)
  | text {text out : List α} {texts : List (List α)} :
      Woven words texts out → Woven words (text :: texts) (text ++ out)

namespace Woven
variable {α : Type u} {words texts more : List (List α)} {out out' : List α}

theorem append (h : Woven words texts out) (h' : Woven words more out') :
    Woven words (texts ++ more) (out ++ out') := by
  induction h with
  | nil => exact h'
  | word hword _ ih =>
    rw [List.append_assoc]
    exact .word hword ih
  | text _ ih =>
    rw [List.append_assoc]
    exact .text ih

theorem single (text : List α) : Woven words [text] text := by
  have h : Woven words [text] (text ++ []) := .text .nil
  rwa [List.append_nil] at h

theorem of_word {word : List α} (h : word ∈ words) : Woven words [] word := by
  have hword : Woven words [] (word ++ []) := .word h .nil
  rwa [List.append_nil] at hword

/-- What is joined with a word in between, of the things that are there at all. -/
theorem joined {ι : Type} {separator : List α} (hsep : separator ∈ words)
    {texts : ι → List (List α)} {part : ι → Option (List α)}
    (hsome : ∀ x out, part x = some out → Woven words (texts x) out)
    (hnone : ∀ x, part x = none → texts x = []) (xs : List ι) :
    Woven words (xs.flatMap texts) (separator.intercalate (xs.filterMap part)) := by
  induction xs with
  | nil => exact .nil
  | cons x xs ih =>
    rw [List.flatMap_cons]
    cases hpart : part x with
    | none =>
      rw [List.filterMap_cons_none hpart, hnone x hpart]
      exact ih
    | some out =>
      have hx := hsome x out hpart
      rw [List.filterMap_cons_some hpart]
      cases hrest : xs.filterMap part with
      | nil =>
        rw [hrest] at ih
        have hlast := hx.append ih
        rw [List.intercalate_nil, List.append_nil] at hlast
        rwa [List.intercalate_singleton]
      | cons next rest =>
        rw [hrest] at ih
        have hjoined := (hx.append (of_word hsep)).append ih
        rw [List.append_nil] at hjoined
        rw [List.intercalate_cons_cons]
        exact hjoined

/-- One thing more, behind what is joined. -/
theorem joined_concat {separator last : List α} {parts : List (List α)} (hsep : separator ∈ words)
    (h : Woven words texts (separator.intercalate parts)) (hlast : Woven words more last) :
    Woven words (texts ++ more) (separator.intercalate (parts ++ [last])) := by
  have hconcat : ∀ part : List α, ∀ parts : List (List α), separator.intercalate
      (part :: parts ++ [last]) = separator.intercalate (part :: parts) ++ separator ++ last := by
    intro part parts
    induction parts generalizing part with
    | nil =>
      rw [List.cons_append, List.nil_append, List.intercalate_cons_cons,
        List.intercalate_singleton, List.intercalate_singleton]
    | cons next parts ih =>
      rw [List.cons_append, List.cons_append, List.intercalate_cons_cons,
        List.intercalate_cons_cons, ← List.cons_append, ih]
      simp only [List.append_assoc]
  cases parts with
  | nil =>
    rw [List.nil_append, List.intercalate_singleton]
    exact h.append hlast
  | cons part parts =>
    have hjoined := (h.append (of_word hsep)).append hlast
    rw [List.append_nil] at hjoined
    rwa [hconcat]

end Woven
