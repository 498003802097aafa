import Mathlib.Data.List.Basic

/-!
# Library — parts joined by a separator

A separator and an escape character that stand in a part are escaped, so the parts can be joined
and told apart again, whatever they hold.

* `read_joined`: reading what was joined gives the parts.
* `joined_injective`: parts that are joined to the same text are the same.
-/

namespace Escaping

variable {α : Type*} [DecidableEq α]

/-- The part, with the escape character before each separator and escape character. -/
def escape (esc sep : α) (part : List α) : List α :=
  part.flatMap fun c => if c = esc ∨ c = sep then [esc, c] else [c]

def joined (esc sep : α) (parts : List (List α)) : List α :=
  [sep].intercalate (parts.map (escape esc sep))

/-- The parts of a text; `escaped` says that an escape character was read last. -/
def read (esc sep : α) : Bool → List α → List (List α)
  | _, [] => [[]]
  | true, c :: text => (read esc sep false text).modifyHead (c :: ·)
  | false, c :: text =>
    if c = esc then read esc sep true text
    else if c = sep then [] :: read esc sep false text
    else (read esc sep false text).modifyHead (c :: ·)

variable {esc sep : α}

theorem read_escape (part text : List α) :
    read esc sep false (escape esc sep part ++ text) =
      (read esc sep false text).modifyHead (part ++ ·) := by
  induction part with
  | nil =>
    have hid : ∀ parts : List (List α), parts.modifyHead ([] ++ ·) = parts := by
      intro parts
      cases parts <;> rfl
    rw [hid]
    rfl
  | cons c part ih =>
    have hread : read esc sep false (escape esc sep (c :: part) ++ text) =
        (read esc sep false (escape esc sep part ++ text)).modifyHead (c :: ·) := by
      rw [escape, List.flatMap_cons]
      by_cases hc : c = esc ∨ c = sep
      · rw [if_pos hc]
        simp only [List.cons_append, List.nil_append, read, if_pos]
        rfl
      · rw [if_neg hc]
        obtain ⟨hesc, hsep⟩ := not_or.mp hc
        simp only [List.cons_append, List.nil_append, read, if_neg hesc, if_neg hsep]
        rfl
    rw [hread, ih, List.modifyHead_modifyHead]
    rfl

/-- **The parts are read back.** -/
theorem read_joined (hsep : sep ≠ esc) : ∀ {parts : List (List α)}, parts ≠ [] →
    read esc sep false (joined esc sep parts) = parts
  | [], h => absurd rfl h
  | [part], _ => by
      have hread : read esc sep false (escape esc sep part ++ []) =
          (read esc sep false []).modifyHead (part ++ ·) := read_escape part []
      rw [List.append_nil] at hread
      simpa [joined, List.intercalate, read] using hread
  | part :: next :: parts, _ => by
      have hjoined : joined esc sep (part :: next :: parts) =
          escape esc sep part ++ sep :: joined esc sep (next :: parts) := by
        simp [joined, List.intercalate]
      have ih := read_joined hsep (List.cons_ne_nil next parts)
      rw [hjoined, read_escape, read, if_neg hsep, if_pos rfl, ih]
      simp

theorem joined_injective (hsep : sep ≠ esc) {parts parts' : List (List α)} (hne : parts ≠ [])
    (hne' : parts' ≠ []) (h : joined esc sep parts = joined esc sep parts') : parts = parts' := by
  rw [← read_joined hsep hne, h, read_joined hsep hne']

end Escaping
