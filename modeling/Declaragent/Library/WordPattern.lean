import Mathlib.Data.List.Basic

/-!
# Library — patterns between word boundaries

A pattern is a word boundary, one of several sequences of items, and a word boundary again; an item
is a character of a class, or as many of them as there are but no fewer than a number.  A match is
looked for with the longest repetitions first, as a backtracking matcher does.

`events` is a global search: the characters that are kept and the matches, from left to right.

* `matchAt_sound`, `matchAt_complete`: what is found, and when something is.
* `events_keep`, `events_hit`: a global search goes on behind a match.
* `inert_of_test`: a text that a search keeps, whatever stands around it.
-/

namespace WordPattern

/-! ### Patterns -/

inductive Item (α : Type) where
  | one (accepts : α → Bool)
  | many (atLeast : Nat) (accepts : α → Bool)

def Item.accepts {α : Type} : Item α → α → Bool
  | .one accepts | .many _ accepts => accepts

variable {α : Type} (isWord : α → Bool)

/-- Whether a word character comes next. -/
def headWord : List α → Bool
  | [] => false
  | c :: _ => isWord c

/-- Whether a word character came last, after `prev`. -/
def lastWord : Bool → List α → Bool
  | prev, [] => prev
  | _, c :: s => lastWord (isWord c) s

/-- As many characters as there are, and fewer if what follows does not match. -/
def greedy (accepts : α → Bool) (follow : Bool → List α → Option (List α)) :
    Nat → Bool → List α → Option (List α)
  | n, prev, [] => if n = 0 then follow prev [] else none
  | n, prev, c :: s =>
    let stop := if n = 0 then follow prev (c :: s) else none
    if accepts c then (greedy accepts follow (n - 1) (isWord c) s).or stop else stop

/-- The items and the closing boundary, with what is left behind them. -/
def runItems : List (Item α) → Bool → List α → Option (List α)
  | [], prev, s => if prev = headWord isWord s then none else some s
  | .one _ :: _, _, [] => none
  | .one accepts :: items, _, c :: s =>
    if accepts c then runItems items (isWord c) s else none
  | .many n accepts :: items, prev, s => greedy isWord accepts (runItems items) n prev s

/-- A match at a position, with what is left behind it. -/
def matchAt (alternatives : List (List (Item α))) (prev : Bool) (s : List α) :
    Option (List α) :=
  if prev = headWord isWord s then none
  else alternatives.findSome? fun items => runItems isWord items prev s

/-- Each alternative begins with a word character. -/
def Begins (alternatives : List (List (Item α))) : Prop :=
  ∀ items ∈ alternatives, ∃ accepts rest, items = .one accepts :: rest ∧
    ∀ c, accepts c = true → isWord c = true

/-- The words of a sequence of items. -/
inductive Words : List (Item α) → List α → Prop where
  | nil : Words [] []
  | one {accepts : α → Bool} {items : List (Item α)} {c : α} {m : List α}
      (accepted : accepts c = true) (h : Words items m) : Words (.one accepts :: items) (c :: m)
  | many {accepts : α → Bool} {items : List (Item α)} {n : Nat} {w m : List α}
      (enough : n ≤ w.length) (accepted : ∀ c ∈ w, accepts c = true) (h : Words items m) :
      Words (.many n accepts :: items) (w ++ m)

/-- The words of a pattern. -/
def Spells (alternatives : List (List (Item α))) (m : List α) : Prop :=
  ∃ items ∈ alternatives, Words items m

variable {isWord}

theorem lastWord_append (prev : Bool) (u v : List α) :
    lastWord isWord prev (u ++ v) = lastWord isWord (lastWord isWord prev u) v := by
  induction u generalizing prev with
  | nil => rfl
  | cons c u ih => exact ih (isWord c)

section Greedy

variable {accepts : α → Bool} {follow : Bool → List α → Option (List α)}

theorem greedy_sound {n : Nat} {prev : Bool} {s rest : List α}
    (h : greedy isWord accepts follow n prev s = some rest) :
    ∃ w t, s = w ++ t ∧ n ≤ w.length ∧ (∀ c ∈ w, accepts c = true) ∧
      follow (lastWord isWord prev w) t = some rest := by
  have stopped {s : List α} {n : Nat} {prev : Bool}
      (h : (if n = 0 then follow prev s else none) = some rest) :
      ∃ w t, s = w ++ t ∧ n ≤ w.length ∧ (∀ c ∈ w, accepts c = true) ∧
        follow (lastWord isWord prev w) t = some rest := by
    split at h
    · exact ⟨[], s, rfl, by omega, by simp, h⟩
    · cases h
  induction s generalizing n prev with
  | nil => exact stopped h
  | cons c s ih =>
    rw [greedy] at h
    split at h
    · rename_i accepted
      rcases Option.or_eq_some_iff.mp h with h | ⟨-, h⟩
      · obtain ⟨w, t, rfl, enough, all, h⟩ := ih h
        exact ⟨c :: w, t, rfl, by simp; omega, by simpa using ⟨accepted, all⟩, h⟩
      · exact stopped h
    · exact stopped h

theorem greedy_complete {n : Nat} {prev : Bool} {w t : List α} (enough : n ≤ w.length)
    (all : ∀ c ∈ w, accepts c = true) (h : (follow (lastWord isWord prev w) t).isSome = true) :
    (greedy isWord accepts follow n prev (w ++ t)).isSome = true := by
  induction w generalizing n prev with
  | nil =>
    obtain rfl : n = 0 := Nat.le_zero.mp enough
    cases t with
    | nil => exact h
    | cons c t =>
      have stops : (follow prev (c :: t)).isSome = true := h
      rw [List.nil_append, greedy]
      split <;> simp [stops]
  | cons c w ih =>
    rw [List.forall_mem_cons] at all
    rw [List.cons_append, greedy]
    simp only [all.1, if_true, Option.isSome_or, Bool.or_eq_true]
    exact .inl (ih (by simp at enough; omega) all.2 h)

end Greedy

variable {alternatives : List (List (Item α))} {prev : Bool} {s rest m : List α}

theorem runItems_sound {items : List (Item α)} (h : runItems isWord items prev s = some rest) :
    ∃ m, s = m ++ rest ∧ Words items m ∧ lastWord isWord prev m ≠ headWord isWord rest := by
  induction items generalizing prev s with
  | nil =>
    rw [runItems] at h
    split at h
    · cases h
    · obtain rfl := Option.some.inj h
      exact ⟨[], rfl, .nil, ‹_›⟩
  | cons item items ih =>
    cases item with
    | one accepts =>
      cases s with
      | nil => cases h
      | cons c s =>
        rw [runItems] at h
        split at h
        · obtain ⟨m, rfl, words, ends⟩ := ih h
          exact ⟨c :: m, rfl, .one ‹_› words, ends⟩
        · cases h
    | many n accepts =>
      obtain ⟨w, t, rfl, enough, all, h⟩ := greedy_sound h
      obtain ⟨m, rfl, words, ends⟩ := ih h
      exact ⟨w ++ m, (List.append_assoc ..).symm, .many enough all words,
        by rwa [lastWord_append]⟩

theorem runItems_complete {items : List (Item α)} (words : Words items m)
    (ends : lastWord isWord prev m ≠ headWord isWord rest) :
    (runItems isWord items prev (m ++ rest)).isSome = true := by
  induction words generalizing prev with
  | nil =>
    rw [lastWord] at ends
    simp [runItems, ends]
  | one accepted _ ih => simpa [runItems, accepted] using ih ends
  | many enough all _ ih =>
    rw [lastWord_append] at ends
    rw [runItems, List.append_assoc]
    exact greedy_complete enough all (ih ends)

theorem matchAt_sound (h : matchAt isWord alternatives prev s = some rest) :
    ∃ m, s = m ++ rest ∧ Spells alternatives m ∧ prev ≠ headWord isWord s ∧
      lastWord isWord prev m ≠ headWord isWord rest := by
  rw [matchAt] at h
  split at h
  · cases h
  · obtain ⟨items, mem, h⟩ := List.exists_of_findSome?_eq_some h
    obtain ⟨m, rfl, words, ends⟩ := runItems_sound h
    exact ⟨m, rfl, ⟨items, mem, words⟩, ‹_›, ends⟩

theorem matchAt_complete (spells : Spells alternatives m)
    (begins : prev ≠ headWord isWord (m ++ rest))
    (ends : lastWord isWord prev m ≠ headWord isWord rest) :
    (matchAt isWord alternatives prev (m ++ rest)).isSome = true := by
  obtain ⟨items, mem, words⟩ := spells
  rw [matchAt, if_neg begins, List.findSome?_isSome_iff]
  exact ⟨items, mem, runItems_complete words ends⟩

/-- A word of a pattern begins with a word character. -/
theorem Begins.spells (begins : Begins isWord alternatives) (spells : Spells alternatives m) :
    ∃ c t, m = c :: t ∧ isWord c = true := by
  obtain ⟨items, mem, words⟩ := spells
  obtain ⟨accepts, rest, rfl, first⟩ := begins items mem
  cases words with
  | one accepted _ => exact ⟨_, _, rfl, first _ accepted⟩

/-! ### A global search -/

inductive Event (α : Type) where
  | keep (c : α)
  | hit (m : List α)
  deriving DecidableEq

variable (isWord) in
/-- What a global search does with the text behind the rest of a match. -/
def events (alternatives : List (List (Item α))) : Nat → Bool → List α → List (Event α)
  | _, _, [] => []
  | skip + 1, _, c :: s => events alternatives skip (isWord c) s
  | 0, prev, c :: s =>
    match matchAt isWord alternatives prev (c :: s) with
    | some rest =>
      let n := (c :: s).length - rest.length
      .hit ((c :: s).take n) :: events alternatives (n - 1) (isWord c) s
    | none => .keep c :: events alternatives 0 (isWord c) s

theorem events_skip (u v : List α) :
    events isWord alternatives u.length prev (u ++ v) =
      events isWord alternatives 0 (lastWord isWord prev u) v := by
  induction u generalizing prev with
  | nil => rfl
  | cons c u ih => exact ih

theorem events_keep {c : α} (h : matchAt isWord alternatives prev (c :: s) = none) :
    events isWord alternatives 0 prev (c :: s) =
      .keep c :: events isWord alternatives 0 (isWord c) s := by
  rw [events, h]

/-- A match is a hit, and the search goes on behind it. -/
theorem events_hit (begins : Begins isWord alternatives)
    (h : matchAt isWord alternatives prev s = some rest) :
    ∃ m, s = m ++ rest ∧ Spells alternatives m ∧ prev ≠ headWord isWord s ∧
      lastWord isWord prev m ≠ headWord isWord rest ∧
      events isWord alternatives 0 prev s =
        .hit m :: events isWord alternatives 0 (lastWord isWord prev m) rest := by
  obtain ⟨m, rfl, spells, starts, ends⟩ := matchAt_sound h
  refine ⟨m, rfl, spells, starts, ends, ?_⟩
  obtain ⟨c, t, rfl, -⟩ := begins.spells spells
  have length : (c :: (t ++ rest)).length - rest.length = t.length + 1 := by simp; omega
  have taken : (c :: (t ++ rest)).take (t.length + 1) = c :: t := by simp
  rw [List.cons_append] at h ⊢
  rw [events, h]
  dsimp only
  rw [length, taken, Nat.add_sub_cancel, events_skip, lastWord]

variable (isWord) in
/-- A search for one match, anywhere. -/
def test (alternatives : List (List (Item α))) : Bool → List α → Bool
  | prev, [] => (matchAt isWord alternatives prev []).isSome
  | prev, c :: s =>
    (matchAt isWord alternatives prev (c :: s)).isSome || test alternatives (isWord c) s

/-- A text without a match is kept. -/
theorem events_of_test (h : test isWord alternatives prev s = false) :
    events isWord alternatives 0 prev s = s.map .keep := by
  induction s generalizing prev with
  | nil => rfl
  | cons c s ih =>
    rw [test, Bool.or_eq_false_iff, Option.isSome_eq_false_iff, Option.isNone_iff_eq_none] at h
    rw [events_keep h.1, ih h.2, List.map_cons]

theorem matchAt_nil (begins : Begins isWord alternatives) :
    matchAt isWord alternatives prev [] = none := by
  cases h : matchAt isWord alternatives prev [] with
  | none => rfl
  | some rest =>
    obtain ⟨m, eq, spells, -⟩ := matchAt_sound h
    obtain ⟨c, t, rfl, -⟩ := begins.spells spells
    cases eq

/-! ### Texts without a match -/

/-- No match goes through the character. -/
structure Blocks (isWord : α → Bool) (alternatives : List (List (Item α))) (c : α) : Prop where
  word : isWord c = false
  rejected : ∀ items ∈ alternatives, ∀ item ∈ items, item.accepts c = false

/-- A text that no match goes into, and that a search keeps. -/
structure Inert (isWord : α → Bool) (alternatives : List (List (Item α))) (w : List α) : Prop where
  head : ∃ c t, w = c :: t ∧ Blocks isWord alternatives c
  kept : ∀ prev rest, events isWord alternatives 0 prev (w ++ rest) =
    w.map .keep ++ events isWord alternatives 0 false rest

theorem Words.accepted {items : List (Item α)} (words : Words items m) :
    ∀ c ∈ m, ∃ item ∈ items, item.accepts c = true := by
  induction words with
  | nil => simp
  | one accepted _ ih =>
    rw [List.forall_mem_cons]
    refine ⟨⟨_, List.mem_cons_self, accepted⟩, fun c mem => ?_⟩
    obtain ⟨item, hitem, h⟩ := ih c mem
    exact ⟨item, List.mem_cons_of_mem _ hitem, h⟩
  | many _ all _ ih =>
    rw [List.forall_mem_append]
    refine ⟨fun c mem => ⟨_, List.mem_cons_self, all c mem⟩, fun c mem => ?_⟩
    obtain ⟨item, hitem, h⟩ := ih c mem
    exact ⟨item, List.mem_cons_of_mem _ hitem, h⟩

theorem Blocks.notMem {z : α} (blocks : Blocks isWord alternatives z)
    (spells : Spells alternatives m) : z ∉ m := by
  intro mem
  obtain ⟨items, alternative, words⟩ := spells
  obtain ⟨item, hitem, accepted⟩ := words.accepted z mem
  rw [blocks.rejected items alternative item hitem] at accepted
  cases accepted

/-- A match ahead of a character that blocks is one of the text up to it. -/
theorem Blocks.isSome_matchAt {z : α} (blocks : Blocks isWord alternatives z) {u rest : List α}
    (h : (matchAt isWord alternatives prev (u ++ z :: rest)).isSome = true) :
    (matchAt isWord alternatives prev u).isSome = true := by
  obtain ⟨rest', h⟩ := Option.isSome_iff_exists.mp h
  obtain ⟨m, eq, spells, starts, ends⟩ := matchAt_sound h
  have head (v : List α) : headWord isWord (v ++ z :: rest) = headWord isWord v := by
    cases v with
    | nil => exact blocks.word
    | cons c v => rfl
  rw [head] at starts
  rcases List.append_eq_append_iff.mp eq with ⟨a, rfl, behind⟩ | ⟨v, rfl, rfl⟩
  · cases a with
    | nil =>
      obtain rfl : z :: rest = rest' := behind
      rw [headWord, blocks.word] at ends
      have found : (matchAt isWord alternatives prev (u ++ [] ++ [])).isSome = true :=
        matchAt_complete spells (by simpa using starts) ends
      simpa using found
    | cons x a =>
      obtain ⟨rfl, -⟩ := List.cons.inj behind
      exact absurd (by simp) (blocks.notMem spells)
  · rw [head] at ends
    exact matchAt_complete spells starts ends

/-- A text without a match between two characters that block. -/
theorem inert_of_test (begins : Begins isWord alternatives) {c z : α} {t : List α}
    (first : Blocks isWord alternatives c) (last : Blocks isWord alternatives z)
    (none : ∀ prev, test isWord alternatives prev (c :: t) = false) :
    Inert isWord alternatives (c :: t ++ [z]) := by
  refine ⟨⟨c, t ++ [z], rfl, first⟩, fun prev rest => ?_⟩
  have quiet := none prev
  generalize c :: t = u at quiet ⊢
  induction u generalizing prev with
  | nil =>
    have unmatched : matchAt isWord alternatives prev (z :: rest) = Option.none := by
      cases h : matchAt isWord alternatives prev (z :: rest) with
      | none => rfl
      | some rest' =>
        have found := last.isSome_matchAt (u := []) (Option.isSome_iff_exists.mpr ⟨rest', h⟩)
        rw [matchAt_nil begins] at found
        cases found
    rw [List.nil_append, List.singleton_append, events_keep unmatched, last.word]
    rfl
  | cons x u ih =>
    rw [test, Bool.or_eq_false_iff] at quiet
    have unmatched :
        matchAt isWord alternatives prev (x :: (u ++ [z] ++ rest)) = Option.none := by
      cases h : matchAt isWord alternatives prev (x :: (u ++ [z] ++ rest)) with
      | none => rfl
      | some rest' =>
        rw [List.append_assoc, ← List.cons_append] at h
        have found := last.isSome_matchAt (Option.isSome_iff_exists.mpr ⟨rest', h⟩)
        rw [quiet.1] at found
        cases found
    rw [List.cons_append, List.cons_append, events_keep unmatched, ih _ quiet.2]
    rfl

end WordPattern
