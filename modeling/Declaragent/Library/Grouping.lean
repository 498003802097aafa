import Mathlib.Data.List.Induction
import Mathlib.Data.List.Nodup

/-!
# Library — entries by key

Items are collected under their keys, each key with one entry: the first item of a key makes it,
and each item updates it.

* `lookup_collect`: the entry of a key is the fold of the items that have it.
* `nodup_keys_collect`: a key has just one.
-/

namespace Grouping

universe u v w
variable {κ : Type u} {α : Type v} {β : Type w} [DecidableEq κ]

/-- The entry of a key updated, or made and updated; a new one goes last. -/
def upsert (key : κ) (fresh : β) (f : β → β) : List (κ × β) → List (κ × β)
  | [] => [(key, f fresh)]
  | entry :: entries =>
    if entry.1 = key then (key, f entry.2) :: entries else entry :: upsert key fresh f entries

/-- The keys of the entries. -/
def keys (entries : List (κ × β)) : List κ := entries.map Prod.fst

theorem lookup_cons (k : κ) (entry : κ × β) (entries : List (κ × β)) :
    (entry :: entries).lookup k = if k = entry.1 then some entry.2 else entries.lookup k := by
  rw [List.lookup_cons]
  by_cases hk : k = entry.1
  · rw [if_pos hk, beq_iff_eq.mpr hk]
  · rw [if_neg hk, beq_eq_false_iff_ne.mpr hk]

section
variable {key : κ} {fresh : β} {f : β → β} {entries : List (κ × β)}

theorem lookup_upsert (k : κ) : (upsert key fresh f entries).lookup k =
    if k = key then some (f ((entries.lookup key).getD fresh)) else entries.lookup k := by
  induction entries with
  | nil => rw [upsert, lookup_cons, List.lookup_nil, List.lookup_nil, Option.getD_none]
  | cons entry entries ih =>
    unfold upsert
    by_cases hkey : entry.1 = key
    · subst hkey
      rw [if_pos rfl, lookup_cons, lookup_cons, lookup_cons, if_pos rfl, Option.getD_some]
      split_ifs <;> rfl
    · rw [if_neg hkey, lookup_cons, lookup_cons, lookup_cons, ih, if_neg (Ne.symm hkey)]
      by_cases hk : k = entry.1
      · subst hk
        rw [if_pos rfl, if_neg hkey, if_pos rfl]
      · rw [if_neg hk, if_neg hk]

theorem mem_keys_upsert {k : κ} :
    k ∈ keys (upsert key fresh f entries) ↔ k = key ∨ k ∈ keys entries := by
  induction entries with
  | nil => simp [keys, upsert]
  | cons entry entries ih =>
    unfold upsert
    split_ifs with hkey
    · subst hkey
      simp [keys]
    · have hcons (e : κ × β) (es : List (κ × β)) : k ∈ keys (e :: es) ↔ k = e.1 ∨ k ∈ keys es :=
        List.mem_cons
      rw [hcons, hcons, ih, or_left_comm]

theorem nodup_keys_upsert (h : (keys entries).Nodup) :
    (keys (upsert key fresh f entries)).Nodup := by
  induction entries with
  | nil => exact List.nodup_singleton _
  | cons entry entries ih =>
    obtain ⟨hnew, hrest⟩ := List.nodup_cons.mp h
    unfold upsert
    split_ifs with hkey
    · subst hkey
      exact h
    · refine List.nodup_cons.mpr ⟨fun hmem => ?_, ih hrest⟩
      rcases mem_keys_upsert.mp hmem with heq | hmem
      · exact hkey heq
      · exact hnew hmem

end

theorem lookup_eq_some_iff {entries : List (κ × β)} (h : (keys entries).Nodup) {k : κ} {b : β} :
    entries.lookup k = some b ↔ (k, b) ∈ entries := by
  induction entries with
  | nil => simp
  | cons entry entries ih =>
    obtain ⟨k', b'⟩ := entry
    obtain ⟨hnew, hrest⟩ := List.nodup_cons.mp h
    rw [lookup_cons, List.mem_cons]
    by_cases hk : k = k'
    · subst hk
      have hnot : (k, b) ∉ entries := fun hmem => hnew (List.mem_map.mpr ⟨_, hmem, rfl⟩)
      simp [hnot, eq_comm]
    · simp [hk, ih hrest]

/-! ### Collecting -/

section
variable (key : α → κ) (fresh : α → β) (f : α → β → β)

/-- The items one by one, each under its key. -/
def collect (items : List α) : List (κ × β) :=
  items.foldl (fun entries a => upsert (key a) (fresh a) (f a) entries) []

theorem collect_append (items : List α) (a : α) : collect key fresh f (items ++ [a]) =
    upsert (key a) (fresh a) (f a) (collect key fresh f items) := by
  rw [collect, List.foldl_append]
  rfl

theorem nodup_keys_collect (items : List α) : (keys (collect key fresh f items)).Nodup := by
  induction items using List.reverseRecOn with
  | nil => exact List.nodup_nil
  | append_singleton items a ih =>
    rw [collect_append]
    exact nodup_keys_upsert ih

/-- **The entry of a key** is made of the first item that has it and updated by all of them. -/
theorem lookup_collect (items : List α) (k : κ) : (collect key fresh f items).lookup k =
    (items.find? fun a => decide (key a = k)).map fun first =>
      (items.filter fun a => decide (key a = k)).foldl (fun b a => f a b) (fresh first) := by
  induction items using List.reverseRecOn with
  | nil => rfl
  | append_singleton items a ih =>
    rw [collect_append, lookup_upsert, List.find?_append, List.filter_append]
    by_cases hk : k = key a
    · subst hk
      rw [if_pos rfl, ih]
      cases hfind : items.find? fun b => decide (key b = key a) with
      | none =>
        have hnone : items.filter (fun b => decide (key b = key a)) = [] := by
          rw [List.filter_eq_nil_iff]
          exact List.find?_eq_none.mp hfind
        simp [hnone]
      | some first => simp [List.foldl_append]
    · have hne : key a ≠ k := Ne.symm hk
      rw [if_neg hk, ih]
      simp [hne]

end

end Grouping
