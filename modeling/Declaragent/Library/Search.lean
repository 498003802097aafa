import Mathlib.Data.List.Infix

/-!
# Library — searching a text for a word

`cut` finds the first occurrence of a word in a text and gives what is before and after it.
`pieces` cuts a text at every occurrence, from the left, each behind the one before.  `heldBack` is
the longest end of a text that may still become the word, once more comes.

* `cut_eq_some_iff`, `cut_eq_none_iff`: what is found is the first occurrence, if there is one.
* `cut_append`: to look for a word in a text that goes on, the held back end of what was there is
  enough.
* `pieces_of_cut`: the pieces, from one occurrence to the next.
-/

namespace Search

universe u
variable {α : Type u} [DecidableEq α]

/-- What is before and after the first occurrence of the word. -/
def cut (word : List α) : List α → Option (List α × List α)
  | [] => if word = [] then some ([], []) else none
  | c :: text =>
    if word.isPrefixOf (c :: text) then some ([], (c :: text).drop word.length)
    else (cut word text).map fun p => (c :: p.1, p.2)

variable {word text before after : List α}

theorem cut_of_begins (h : word <+: text) : cut word text = some ([], text.drop word.length) := by
  cases text with
  | nil =>
    rw [List.prefix_nil.mp h]
    rfl
  | cons c text =>
    rw [cut, if_pos (List.isPrefixOf_iff_prefix.mpr h)]

theorem cut_cons_of_not_begins {c : α} (h : ¬ word <+: c :: text) :
    cut word (c :: text) = (cut word text).map fun p => (c :: p.1, p.2) := by
  rw [cut, if_neg (fun hp => h (List.isPrefixOf_iff_prefix.mp hp))]

theorem cut_eq_none_iff : cut word text = none ↔ ¬ word <:+: text := by
  induction text with
  | nil => simp [cut]
  | cons c text ih =>
    by_cases h : word <+: c :: text
    · rw [cut_of_begins h]
      exact iff_of_false nofun fun hn => hn h.isInfix
    · rw [cut_cons_of_not_begins h, Option.map_eq_none_iff, ih, List.infix_cons_iff, not_or]
      exact ⟨fun hn => ⟨h, hn⟩, And.right⟩

/-- The text is cut at the word. -/
theorem cut_eq (h : cut word text = some (before, after)) : text = before ++ word ++ after := by
  induction text generalizing before with
  | nil =>
    rw [cut] at h
    split at h
    · rename_i hword
      cases h
      rw [hword]
      rfl
    · cases h
  | cons c text ih =>
    by_cases hp : word <+: c :: text
    · rw [cut_of_begins hp] at h
      cases h
      rw [List.nil_append]
      exact List.prefix_append_drop hp
    · rw [cut_cons_of_not_begins hp] at h
      obtain ⟨⟨before', after'⟩, hcut, heq⟩ := Option.map_eq_some_iff.mp h
      cases heq
      rw [ih hcut]
      rfl

/-- No occurrence is before the one that is found. -/
theorem cut_first (h : cut word text = some (before, after)) {before' after' : List α}
    (htext : text = before' ++ word ++ after') : before.length ≤ before'.length := by
  induction text generalizing before before' with
  | nil =>
    have hnil : before = [] := by
      have heq := (cut_eq h).symm
      simp only [List.append_eq_nil_iff] at heq
      exact heq.1.1
    rw [hnil]
    exact Nat.zero_le _
  | cons c text ih =>
    by_cases hp : word <+: c :: text
    · rw [cut_of_begins hp] at h
      cases h
      exact Nat.zero_le _
    · rw [cut_cons_of_not_begins hp] at h
      obtain ⟨⟨found, rest⟩, hcut, heq⟩ := Option.map_eq_some_iff.mp h
      cases heq
      cases before' with
      | nil => exact absurd ⟨after', htext.symm⟩ hp
      | cons d before' =>
        obtain ⟨-, htail⟩ := List.cons.inj htext
        exact Nat.succ_le_succ (ih hcut htail)

/-- The text at the first occurrence of the word. -/
def First (word text before after : List α) : Prop :=
  text = before ++ word ++ after ∧
    ∀ before' after', text = before' ++ word ++ after' → before.length ≤ before'.length

omit [DecidableEq α] in
theorem First.unique {before' after' : List α} (h : First word text before after)
    (h' : First word text before' after') : before = before' ∧ after = after' := by
  have hlength := Nat.le_antisymm (h.2 _ _ h'.1) (h'.2 _ _ h.1)
  have heq : before ++ (word ++ after) = before' ++ (word ++ after') := by
    rw [← List.append_assoc, ← h.1, h'.1, List.append_assoc]
  obtain ⟨rfl, htail⟩ := List.append_inj heq hlength
  exact ⟨rfl, List.append_cancel_left htail⟩

/-- **The first occurrence.** -/
theorem cut_eq_some_iff : cut word text = some (before, after) ↔ First word text before after := by
  constructor
  · intro h
    exact ⟨cut_eq h, fun _ _ => cut_first h⟩
  · intro h
    cases hcut : cut word text with
    | none => exact absurd ⟨before, after, h.1.symm⟩ (cut_eq_none_iff.mp hcut)
    | some p =>
      obtain ⟨rfl, rfl⟩ := First.unique ⟨cut_eq hcut, fun _ _ => cut_first hcut⟩ h
      rfl

theorem cut_length (hword : word ≠ []) (h : cut word text = some (before, after)) :
    after.length < text.length := by
  have hpos := List.length_pos_of_ne_nil hword
  rw [cut_eq h]
  simp only [List.length_append]
  omega

/-- Cut at every occurrence of a word that is not empty. -/
def pieces (word : List α) (text : List α) : List (List α) :=
  match _hcut : cut word text with
  | none => [text]
  | some (before, after) =>
    if _hword : word = [] then [text]
    else before :: pieces word after
termination_by text.length
decreasing_by exact cut_length _hword _hcut

theorem pieces_of_none (h : cut word text = none) : pieces word text = [text] := by
  rw [pieces]
  split
  · rfl
  · rename_i hcut
    rw [h] at hcut
    cases hcut

theorem pieces_of_cut (hword : word ≠ []) (h : cut word text = some (before, after)) :
    pieces word text = before :: pieces word after := by
  rw [pieces]
  split
  · rename_i hcut
    rw [h] at hcut
    cases hcut
  · rename_i hcut
    rw [h] at hcut
    cases hcut
    rw [dif_neg hword]

/-! ### A text that goes on -/

/-- The longest end of the text, of at most so many characters, that the word begins with. -/
def longest (word text : List α) : Nat → Nat
  | 0 => 0
  | n + 1 => if text.drop (text.length - (n + 1)) = word.take (n + 1) then n + 1
      else longest word text n

/-- The length of the longest end of the text that may still become the word. -/
def heldBack (word text : List α) : Nat := longest word text (min text.length (word.length - 1))

/-- The end of a text that may still become the word. -/
def Partial (word text tail : List α) : Prop :=
  tail <:+ text ∧ tail <+: word ∧ tail.length < word.length

/-- The longest such end. -/
def Held (word text tail : List α) : Prop :=
  Partial word text tail ∧ ∀ other, Partial word text other → other.length ≤ tail.length

theorem longest_le (word text : List α) : ∀ n, longest word text n ≤ n
  | 0 => Nat.le_refl 0
  | n + 1 => by
      rw [longest]
      split
      · exact Nat.le_refl _
      · exact Nat.le_succ_of_le (longest_le word text n)

theorem longest_eq (word text : List α) : ∀ n, text.drop (text.length - longest word text n) =
    word.take (longest word text n)
  | 0 => by simp [longest]
  | n + 1 => by
      rw [longest]
      split
      · assumption
      · exact longest_eq word text n

theorem le_longest {word text : List α} {m : Nat}
    (hm : text.drop (text.length - m) = word.take m) : ∀ {n}, m ≤ n → m ≤ longest word text n
  | 0, h => h
  | n + 1, h => by
      rw [longest]
      split
      · exact h
      · rename_i hne
        refine le_longest hm (Nat.le_of_lt_succ (Nat.lt_of_le_of_ne h ?_))
        rintro rfl
        exact hne hm

omit [DecidableEq α] in
/-- The text ends with as many characters of the word as there are held back. -/
theorem partial_iff {tail : List α} : Partial word text tail ↔
    ∃ m, m ≤ text.length ∧ m < word.length ∧ tail = text.drop (text.length - m) ∧
      text.drop (text.length - m) = word.take m := by
  constructor
  · rintro ⟨hsuffix, hprefix, hlt⟩
    have htail := List.suffix_iff_eq_drop.mp hsuffix
    exact ⟨tail.length, hsuffix.length_le, hlt, htail,
      htail.symm.trans (List.prefix_iff_eq_take.mp hprefix)⟩
  · rintro ⟨m, hle, hlt, rfl, heq⟩
    refine ⟨List.drop_suffix _ _, ?_, ?_⟩
    · rw [heq]
      exact List.take_prefix _ _
    · rw [List.length_drop]
      omega

theorem held_heldBack (hword : word ≠ []) (text : List α) :
    Held word text (text.drop (text.length - heldBack word text)) := by
  have hpos := List.length_pos_of_ne_nil hword
  have hle := longest_le word text (min text.length (word.length - 1))
  refine ⟨partial_iff.mpr ⟨heldBack word text, ?_, ?_, rfl, longest_eq _ _ _⟩, fun other h => ?_⟩
  · unfold heldBack
    omega
  · unfold heldBack
    omega
  · obtain ⟨m, hm, hlt, rfl, heq⟩ := partial_iff.mp h
    have hmax : m ≤ heldBack word text := le_longest heq (by omega)
    rw [List.length_drop, List.length_drop]
    omega

omit [DecidableEq α] in
theorem Held.unique {tail tail' : List α} (h : Held word text tail) (h' : Held word text tail') :
    tail = tail' := by
  have hlength := Nat.le_antisymm (h'.2 _ h.1) (h.2 _ h'.1)
  rw [List.suffix_iff_eq_drop.mp h.1.1, List.suffix_iff_eq_drop.mp h'.1.1, hlength]

omit [DecidableEq α] in
theorem held_nil (hword : word ≠ []) : Held word [] [] :=
  ⟨⟨List.suffix_rfl, List.nil_prefix, List.length_pos_of_ne_nil hword⟩,
    fun _ h => h.1.length_le⟩

omit [DecidableEq α] in
/-- An occurrence in a text that goes on begins no earlier than what was held back. -/
theorem Held.begins {front tail more : List α} (h : Held word (front ++ tail) tail)
    (hnone : ¬ word <:+: front ++ tail)
    (htext : front ++ tail ++ more = before ++ word ++ after) : front.length ≤ before.length := by
  by_contra hlt
  have hbefore : before <+: front ++ tail :=
    List.prefix_of_prefix_length_le ⟨word ++ after, by rw [htext, List.append_assoc]⟩
      (List.prefix_append _ more) (by simp only [List.length_append]; omega)
  obtain ⟨rest, hrest⟩ := hbefore
  have hword : word ++ after = rest ++ more := by
    rw [← hrest, List.append_assoc, List.append_assoc] at htext
    exact (List.append_cancel_left htext).symm
  -- the text ends within the word, and so holds back more
  have hprefix : rest <+: word := by
    rcases List.prefix_or_prefix_of_prefix ⟨more, hword.symm⟩ (List.prefix_append word after) with
      hp | hp
    · exact hp
    · obtain ⟨back, rfl⟩ := hp
      exact absurd ⟨before, back, by rw [← hrest, List.append_assoc]⟩ hnone
  have hlength : rest.length < word.length := by
    refine Nat.lt_of_le_of_ne hprefix.length_le fun heq => ?_
    obtain rfl := hprefix.eq_of_length heq
    exact hnone ⟨before, [], by rw [List.append_nil, hrest]⟩
  have hle := h.2 rest ⟨⟨before, hrest⟩, hprefix, hlength⟩
  have hsum := congrArg List.length hrest
  simp only [List.length_append] at hsum
  omega

omit [DecidableEq α] in
theorem First.occurs (h : First word text before after) : word <:+: text :=
  ⟨before, after, h.1.symm⟩

omit [DecidableEq α] in
/-- What was found first is first in a text that goes on. -/
theorem First.append (h : First word text before after) (more : List α) :
    First word (text ++ more) before (after ++ more) := by
  obtain ⟨rfl, hfirst⟩ := h
  refine ⟨by simp only [List.append_assoc], fun before' after' htext => ?_⟩
  by_contra hlt
  have hfits : before' ++ word <+: before ++ word ++ after :=
    List.prefix_of_prefix_length_le ⟨after', htext.symm⟩ (List.prefix_append _ more)
      (by simp only [List.length_append]; omega)
  obtain ⟨rest, hrest⟩ := hfits
  exact hlt (hfirst before' rest hrest.symm)

/-- **A text that goes on.**  The word is looked for from what was held back. -/
theorem cut_append {front tail : List α} (h : Held word (front ++ tail) tail)
    (hnone : ¬ word <:+: front ++ tail) (more : List α) :
    cut word (front ++ tail ++ more) =
      (cut word (tail ++ more)).map fun p => (front ++ p.1, p.2) := by
  cases hcut : cut word (tail ++ more) with
  | none =>
    rw [Option.map_none, cut_eq_none_iff]
    rintro ⟨before, after, htext⟩
    obtain ⟨between, rfl⟩ := List.prefix_of_prefix_length_le
      ⟨tail ++ more, (List.append_assoc ..).symm⟩
      ⟨word ++ after, by rw [← htext, List.append_assoc]⟩ (h.begins hnone htext.symm)
    rw [List.append_assoc, List.append_assoc, List.append_assoc] at htext
    exact cut_eq_none_iff.mp hcut
      ⟨between, after, by rw [List.append_assoc]; exact List.append_cancel_left htext⟩
  | some p =>
    obtain ⟨before, after⟩ := p
    obtain ⟨heq, hfirst⟩ := cut_eq_some_iff.mp hcut
    refine cut_eq_some_iff.mpr ⟨?_, fun before' after' htext => ?_⟩
    · rw [List.append_assoc, heq]
      simp only [List.append_assoc]
    · obtain ⟨between, rfl⟩ := List.prefix_of_prefix_length_le
        ⟨tail ++ more, (List.append_assoc ..).symm⟩
        ⟨word ++ after', by rw [htext, List.append_assoc]⟩ (h.begins hnone htext)
      rw [List.append_assoc, List.append_assoc, List.append_assoc] at htext
      have hle := hfirst between after'
        (by rw [List.append_assoc]; exact List.append_cancel_left htext)
      simp only [List.length_append]
      omega

theorem Held.notInfix_append {front tail more : List α} (h : Held word (front ++ tail) tail)
    (hnone : ¬ word <:+: front ++ tail) (hmore : ¬ word <:+: tail ++ more) :
    ¬ word <:+: front ++ tail ++ more := by
  rw [← cut_eq_none_iff, cut_append h hnone, cut_eq_none_iff.mpr hmore, Option.map_none]

theorem Held.first_append {front tail more : List α} (h : Held word (front ++ tail) tail)
    (hnone : ¬ word <:+: front ++ tail) (hmore : First word (tail ++ more) before after) :
    First word (front ++ tail ++ more) (front ++ before) after := by
  rw [← cut_eq_some_iff, cut_append h hnone, cut_eq_some_iff.mpr hmore, Option.map_some]

omit [DecidableEq α] in
/-- What is held back of a text that goes on. -/
theorem Held.append {front tail tail' more : List α} (h : Held word (front ++ tail) tail)
    (h' : Held word (tail ++ more) tail') : Held word (front ++ tail ++ more) tail' := by
  obtain ⟨⟨hsuffix, hprefix, hlt⟩, hmax⟩ := h'
  rw [List.append_assoc]
  refine ⟨⟨hsuffix.trans (List.suffix_append _ _), hprefix, hlt⟩, ?_⟩
  rintro other ⟨hother, hotherPrefix, hotherLt⟩
  rcases List.suffix_or_suffix_of_suffix hother (List.suffix_append front (tail ++ more)) with
    hs | ⟨middle, rfl⟩
  · exact hmax other ⟨hs, hotherPrefix, hotherLt⟩
  · -- the end begins before what was held back, which was no shorter
    obtain ⟨start, hstart⟩ := hother
    have hfront : start ++ middle = front := by
      rw [← List.append_assoc] at hstart
      exact List.append_cancel_right hstart
    have hle := h.2 (middle ++ tail)
      ⟨⟨start, by rw [← List.append_assoc, hfront]⟩,
        (List.prefix_append _ more).trans (by rw [List.append_assoc]; exact hotherPrefix),
        Nat.lt_of_le_of_lt (by simp only [List.length_append]; omega) hotherLt⟩
    have hmiddle : middle = [] := by
      rw [List.length_append] at hle
      exact List.length_eq_zero_iff.mp (by omega)
    subst hmiddle
    exact hmax _ ⟨List.suffix_rfl, hotherPrefix, hotherLt⟩

end Search
