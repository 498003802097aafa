import Declaragent.Library.WordPattern
import Mathlib.Algebra.GroupWithZero.Nat

/-!
# Library — matches as symbols

A pass makes one symbol of each match of a pattern, which no pattern accepts and which is no word
character, so that several patterns can be looked for one after the other.

* `passed_pass`: what a pass does, as a relation.
* `test_passed`, `test_passed_self`: a pass leaves no match of its own pattern, and no new match of
  another one.
* `events_shown`: a search of a text where something is shown for each match is a search among the
  symbols, if what is shown is inert.
-/

namespace WordPattern

variable {α : Type} {isWord : α → Bool} {alternatives : List (List (Item α))} {prev : Bool}
  {s : List α}

/-! ### Symbols -/

/-- A character, or a match of the text before. -/
inductive Symbol (α κ : Type) where
  | plain (c : α)
  | mark (k : κ) (source : List α)
  deriving DecidableEq

namespace Symbol

variable {κ : Type}

def source : Symbol α κ → List α
  | .plain c => [c]
  | .mark _ source => source

/-- What is shown, a mark as `render` has it. -/
def shown (render : κ → List α) : Symbol α κ → List α
  | .plain c => [c]
  | .mark k _ => render k

/-- A mark is not accepted. -/
def lift (accepts : α → Bool) : Symbol α κ → Bool
  | .plain c => accepts c
  | .mark .. => false

end Symbol

section Pass

variable {κ : Type}

def Item.lift : Item α → Item (Symbol α κ)
  | .one accepts => .one (Symbol.lift accepts)
  | .many n accepts => .many n (Symbol.lift accepts)

def liftAll (alternatives : List (List (Item α))) : List (List (Item (Symbol α κ))) :=
  alternatives.map (List.map Item.lift)

/-- The source of a text of symbols. -/
def sourceOf (ss : List (Symbol α κ)) : List α := ss.flatMap Symbol.source

def collapse (k : κ) (es : List (Event (Symbol α κ))) : List (Symbol α κ) :=
  es.map fun
    | .keep x => x
    | .hit m => .mark k (sourceOf m)

variable (isWord) in
/-- Each match of a pattern becomes a mark. -/
def pass (alternatives : List (List (Item α))) (k : κ) (prev : Bool) (ss : List (Symbol α κ)) :
    List (Symbol α κ) :=
  collapse k (events (Symbol.lift isWord) (liftAll alternatives) 0 prev ss)

theorem begins_liftAll (begins : Begins isWord alternatives) :
    Begins (Symbol.lift isWord : Symbol α κ → Bool) (liftAll alternatives) := by
  rintro lifted mem
  obtain ⟨items, alternative, rfl⟩ := List.mem_map.mp mem
  obtain ⟨accepts, rest, rfl, first⟩ := begins items alternative
  refine ⟨_, _, List.map_cons .., fun x accepted => ?_⟩
  cases x with
  | plain c => exact first c accepted
  | mark => cases accepted

theorem plain_of_accepted {accepts : α → Bool} {w : List (Symbol α κ)}
    (all : ∀ x ∈ w, Symbol.lift accepts x = true) :
    ∃ u : List α, w = u.map .plain ∧ ∀ c ∈ u, accepts c = true := by
  induction w with
  | nil => exact ⟨[], rfl, by simp⟩
  | cons x w ih =>
    rw [List.forall_mem_cons] at all
    obtain ⟨u, rfl, accepted⟩ := ih all.2
    cases x with
    | plain c => exact ⟨c :: u, rfl, List.forall_mem_cons.mpr ⟨all.1, accepted⟩⟩
    | mark => cases all.1

theorem words_lift {items : List (Item α)} {m : List (Symbol α κ)}
    (words : Words (items.map Item.lift) m) : ∃ u : List α, m = u.map .plain ∧ Words items u := by
  induction items generalizing m with
  | nil => cases words; exact ⟨[], rfl, .nil⟩
  | cons item items ih =>
    cases item with
    | one accepts =>
      cases words with
      | one accepted words =>
        rename_i x m
        obtain ⟨u, rfl, plain⟩ := ih words
        cases x with
        | plain c => exact ⟨c :: u, rfl, .one accepted plain⟩
        | mark => cases accepted
    | many n accepts =>
      cases words with
      | many enough all words =>
        obtain ⟨v, rfl, accepted⟩ := plain_of_accepted all
        obtain ⟨u, rfl, plain⟩ := ih words
        exact ⟨v ++ u, List.map_append.symm, .many (by simpa using enough) accepted plain⟩

/-- A word of a lifted pattern is a text of characters. -/
theorem spells_liftAll {m : List (Symbol α κ)} (spells : Spells (liftAll alternatives) m) :
    ∃ u : List α, m = u.map .plain ∧ Spells alternatives u := by
  obtain ⟨lifted, mem, words⟩ := spells
  obtain ⟨items, alternative, rfl⟩ := List.mem_map.mp mem
  obtain ⟨u, rfl, plain⟩ := words_lift words
  exact ⟨u, rfl, items, alternative, plain⟩

theorem lastWord_plain (u : List α) :
    lastWord (Symbol.lift isWord : Symbol α κ → Bool) prev (u.map .plain) =
      lastWord isWord prev u := by
  induction u generalizing prev with
  | nil => rfl
  | cons c u ih => exact ih

theorem sourceOf_plain (u : List α) : sourceOf (u.map .plain : List (Symbol α κ)) = u := by
  rw [sourceOf, List.flatMap_map]
  exact List.flatMap_singleton' u

theorem headWord_plain {u : List α} {rest : List (Symbol α κ)} (begins : Begins isWord alternatives)
    (spells : Spells alternatives u) :
    headWord (Symbol.lift isWord) (u.map .plain ++ rest) = true := by
  obtain ⟨c, t, rfl, word⟩ := begins.spells spells
  exact word

/-! ### A pass -/

/-- What a pass does, from left to right: a symbol where no match begins is kept, and a match, which
is a text of characters, becomes a mark. -/
inductive Passed (isWord : α → Bool) (alternatives : List (List (Item α))) (k : κ) :
    Bool → List (Symbol α κ) → List (Symbol α κ) → Prop where
  | nil (prev : Bool) : Passed isWord alternatives k prev [] []
  | keep {prev : Bool} {x : Symbol α κ} {ss ss' : List (Symbol α κ)}
      (kept : matchAt (Symbol.lift isWord) (liftAll alternatives) prev (x :: ss) = none)
      (h : Passed isWord alternatives k (Symbol.lift isWord x) ss ss') :
      Passed isWord alternatives k prev (x :: ss) (x :: ss')
  | hit {u : List α} {ss ss' : List (Symbol α κ)} (spells : Spells alternatives u)
      (ends : lastWord isWord false u ≠ headWord (Symbol.lift isWord) ss)
      (h : Passed isWord alternatives k (lastWord isWord false u) ss ss') :
      Passed isWord alternatives k false (u.map .plain ++ ss) (.mark k u :: ss')

variable {k : κ} {ss ss' rest : List (Symbol α κ)}

theorem passed_pass (begins : Begins isWord alternatives) (k : κ) (prev : Bool)
    (ss : List (Symbol α κ)) :
    Passed isWord alternatives k prev ss (pass isWord alternatives k prev ss) := by
  induction len : ss.length using Nat.strongRecOn generalizing prev ss with
  | ind n ih =>
    cases found : matchAt (Symbol.lift isWord) (liftAll alternatives) prev ss with
    | none =>
      cases ss with
      | nil => exact .nil prev
      | cons x ss =>
        rw [pass, events_keep found]
        exact .keep found (ih ss.length (by simp [← len]) _ ss rfl)
    | some rest =>
      obtain ⟨m, rfl, lifted, starts, ends, eq⟩ := events_hit (begins_liftAll begins) found
      obtain ⟨u, rfl, spells⟩ := spells_liftAll lifted
      rw [headWord_plain begins spells] at starts
      obtain rfl := Bool.eq_false_iff.mpr starts
      obtain ⟨c, t, rfl, -⟩ := begins.spells spells
      rw [lastWord_plain] at ends eq
      have shorter : rest.length < n := by
        rw [← len, List.length_append, List.length_map, List.length_cons]
        omega
      have later := ih rest.length shorter (lastWord isWord false (c :: t)) rest rfl
      rw [pass, eq]
      show Passed isWord alternatives k false _ (.mark k (sourceOf ((c :: t).map .plain)) :: _)
      rw [sourceOf_plain]
      exact .hit spells ends later

theorem sourceOf_passed (h : Passed isWord alternatives k prev ss ss') :
    sourceOf ss' = sourceOf ss := by
  induction h with
  | nil => rfl
  | keep _ _ ih => rw [sourceOf, List.flatMap_cons, ← sourceOf, ih]; rfl
  | hit _ _ _ ih =>
    rw [sourceOf, List.flatMap_cons, ← sourceOf, ih, sourceOf, sourceOf, List.flatMap_append,
      ← sourceOf, ← sourceOf, sourceOf_plain]
    rfl

theorem mark_of_passed (h : Passed isWord alternatives k prev ss ss') {l : κ} {u : List α}
    (mem : .mark l u ∈ ss') : .mark l u ∈ ss ∨ l = k := by
  induction h with
  | nil => cases mem
  | keep _ _ ih =>
    rcases List.mem_cons.mp mem with eq | mem
    · exact .inl (List.mem_cons.mpr (.inl eq))
    · exact (ih mem).imp_left (List.mem_cons_of_mem _)
  | hit _ _ _ ih =>
    rcases List.mem_cons.mp mem with eq | mem
    · exact .inr (Symbol.mark.inj eq).1
    · exact (ih mem).imp_left (List.mem_append_right _)

/-! ### No match is left, and none is new -/

/-- A position in a text, with what comes before it. -/
inductive At (isWord : α → Bool) (prev' : Bool) (s' : List α) : Bool → List α → Prop where
  | here : At isWord prev' s' prev' s'
  | later {prev : Bool} {c : α} {s : List α} (h : At isWord prev' s' (isWord c) s) :
      At isWord prev' s' prev (c :: s)

theorem test_of_at {prev' : Bool} {s' : List α} (h : At isWord prev' s' prev s)
    (found : (matchAt isWord alternatives prev' s').isSome = true) :
    test isWord alternatives prev s = true := by
  induction h with
  | here => cases s' <;> simp [test, found]
  | later _ ih => simp [test, ih]

theorem at_append {prev' : Bool} {s' : List (Symbol α κ)} {u : List α}
    (h : At (Symbol.lift isWord) prev' s' (lastWord isWord prev u) rest) :
    At (Symbol.lift isWord) prev' s' prev (u.map .plain ++ rest) := by
  induction u generalizing prev with
  | nil => exact h
  | cons c u ih => exact .later (ih h)

/-- The characters ahead of the next mark were there before. -/
theorem prefix_of_passed {u : List α} {rest' : List (Symbol α κ)}
    (h : Passed isWord alternatives k prev ss (u.map .plain ++ rest')) :
    ∃ rest, ss = u.map .plain ++ rest ∧
      Passed isWord alternatives k (lastWord isWord prev u) rest rest' := by
  induction u generalizing prev ss with
  | nil => exact ⟨ss, rfl, h⟩
  | cons c u ih =>
    cases h with
    | keep _ h =>
      obtain ⟨rest, rfl, later⟩ := ih h
      exact ⟨rest, rfl, later⟩

/-- What came before a position of the text of symbols, and of what a pass made of it: the same, or
the pass made a mark of it, which ends at a boundary. -/
def Follows (isWord : α → Bool) (prev' prev : Bool) (ss : List (Symbol α κ)) : Prop :=
  prev' = prev ∨ prev' = false ∧ prev ≠ headWord (Symbol.lift isWord) ss

variable {others : List (List (Item α))} {prev' : Bool}

/-- A match at a symbol that a pass keeps was there before. -/
theorem matchAt_of_passed {x : Symbol α κ} (begins : Begins isWord alternatives)
    (begins' : Begins isWord others) (follows : Follows isWord prev' prev (x :: ss))
    (passed : Passed isWord alternatives k prev (x :: ss) (x :: ss'))
    (h : (matchAt (Symbol.lift isWord) (liftAll others) prev' (x :: ss')).isSome = true) :
    (matchAt (Symbol.lift isWord) (liftAll others) prev (x :: ss)).isSome = true := by
  obtain ⟨rest', h⟩ := Option.isSome_iff_exists.mp h
  obtain ⟨m, eq, lifted, starts, ends⟩ := matchAt_sound h
  obtain ⟨u, rfl, spells⟩ := spells_liftAll lifted
  have word' : headWord (Symbol.lift isWord) (x :: ss') = true := by
    rw [eq]
    exact headWord_plain begins' spells
  have word : headWord (Symbol.lift isWord) (x :: ss) = true := word'
  have quiet : prev = false := by
    rcases follows with rfl | ⟨-, ne⟩
    · exact Bool.eq_false_iff.mpr (ne_of_ne_of_eq starts word)
    · exact Bool.eq_false_iff.mpr (ne_of_ne_of_eq ne word)
  rw [eq] at passed
  obtain ⟨rest, split, later⟩ := prefix_of_passed passed
  rw [split] at word ⊢
  refine matchAt_complete lifted (by rw [word, quiet]; decide) ?_
  -- a word is not empty, so that what came before it does not matter where it ends
  obtain ⟨c, t, rfl, -⟩ := begins'.spells spells
  rw [lastWord_plain] at ends ⊢
  generalize flag : lastWord isWord prev (c :: t) = last at later ⊢
  have same : lastWord isWord prev' (c :: t) = last := flag
  rw [same] at ends
  cases later with
  | nil => exact ends
  | keep => exact ends
  | hit spelled => rw [headWord_plain begins spelled]; decide

/-- No match begins with a mark. -/
theorem matchAt_mark (begins : Begins isWord alternatives) {source : List α} :
    matchAt (Symbol.lift isWord) (liftAll alternatives) prev (.mark k source :: ss) = none := by
  cases h : matchAt (Symbol.lift isWord) (liftAll alternatives) prev (.mark k source :: ss) with
  | none => rfl
  | some rest =>
    obtain ⟨m, eq, lifted, -⟩ := matchAt_sound h
    obtain ⟨u, rfl, spells⟩ := spells_liftAll lifted
    obtain ⟨c, t, rfl, -⟩ := begins.spells spells
    cases eq

/-- A match in what a pass made is at a symbol that the pass keeps, and was there before. -/
theorem at_of_test_passed (begins : Begins isWord alternatives) (begins' : Begins isWord others)
    (passed : Passed isWord alternatives k prev ss ss') (follows : Follows isWord prev' prev ss)
    (h : test (Symbol.lift isWord) (liftAll others) prev' ss' = true) :
    ∃ prev₁ ss₁, At (Symbol.lift isWord) prev₁ ss₁ prev ss ∧
      matchAt (Symbol.lift isWord) (liftAll alternatives) prev₁ ss₁ = none ∧
      (matchAt (Symbol.lift isWord) (liftAll others) prev₁ ss₁).isSome = true := by
  induction passed generalizing prev' with
  | nil =>
    rw [test, matchAt_nil (begins_liftAll begins')] at h
    cases h
  | keep kept passed ih =>
    rw [test, Bool.or_eq_true] at h
    rcases h with h | h
    · exact ⟨_, _, .here, kept, matchAt_of_passed begins begins' follows (.keep kept passed) h⟩
    · obtain ⟨prev₁, ss₁, reached, kept', matched⟩ := ih (.inl rfl) h
      exact ⟨prev₁, ss₁, .later reached, kept', matched⟩
  | hit spells ends passed ih =>
    rw [test, matchAt_mark begins', Option.isSome_none, Bool.false_or] at h
    obtain ⟨prev₁, ss₁, reached, kept, matched⟩ := ih (.inr ⟨rfl, ends⟩) h
    exact ⟨prev₁, ss₁, at_append reached, kept, matched⟩

/-- A pass leaves no match of its own pattern. -/
theorem test_passed_self (begins : Begins isWord alternatives)
    (passed : Passed isWord alternatives k false ss ss') :
    test (Symbol.lift isWord) (liftAll alternatives) false ss' = false := by
  rw [← Bool.not_eq_true]
  intro h
  obtain ⟨prev₁, ss₁, -, kept, matched⟩ := at_of_test_passed begins begins passed (.inl rfl) h
  rw [kept] at matched
  cases matched

/-- A pass makes no new match of another pattern. -/
theorem test_passed (begins : Begins isWord alternatives) (begins' : Begins isWord others)
    (passed : Passed isWord alternatives k false ss ss')
    (h : test (Symbol.lift isWord) (liftAll others) false ss = false) :
    test (Symbol.lift isWord) (liftAll others) false ss' = false := by
  rw [← Bool.not_eq_true] at h ⊢
  intro new
  obtain ⟨prev₁, ss₁, reached, -, matched⟩ := at_of_test_passed begins begins' passed (.inl rfl) new
  exact h (test_of_at reached matched)

/-! ### What is shown for a mark -/

variable {render : κ → List α}

theorem headWord_shown (heads : ∀ k, ∃ c t, render k = c :: t ∧ isWord c = false)
    (ss : List (Symbol α κ)) :
    headWord isWord (ss.flatMap (Symbol.shown render)) =
      headWord (Symbol.lift isWord) ss := by
  cases ss with
  | nil => rfl
  | cons x ss =>
    cases x with
    | plain c => rfl
    | mark k source =>
      obtain ⟨c, t, eq, word⟩ := heads k
      simp [Symbol.shown, eq, headWord, word, Symbol.lift]

theorem greedy_shown {accepts : α → Bool}
    {follow : Bool → List α → Option (List α)}
    {follow' : Bool → List (Symbol α κ) → Option (List (Symbol α κ))}
    (heads : ∀ k, ∃ c t, render k = c :: t ∧ accepts c = false)
    (same : ∀ prev ss, follow prev (ss.flatMap (Symbol.shown render)) =
      (follow' prev ss).map (List.flatMap (Symbol.shown render)))
    (n : Nat) (prev : Bool) (ss : List (Symbol α κ)) :
    greedy isWord accepts follow n prev (ss.flatMap (Symbol.shown render)) =
      (greedy (Symbol.lift isWord) (Symbol.lift accepts) follow' n prev ss).map
        (List.flatMap (Symbol.shown render)) := by
  have stops (n : Nat) (prev : Bool) (ss : List (Symbol α κ)) :
      (if n = 0 then follow prev (ss.flatMap (Symbol.shown render)) else none) =
        (if n = 0 then follow' prev ss else none).map (List.flatMap (Symbol.shown render)) := by
    split
    · exact same prev ss
    · rfl
  induction ss generalizing n prev with
  | nil => exact stops n prev []
  | cons x ss ih =>
    have stop := stops n prev (x :: ss)
    cases x with
    | plain c =>
      have split : (Symbol.plain c :: ss).flatMap (Symbol.shown render) =
        c :: ss.flatMap (Symbol.shown render) := rfl
      rw [split] at stop ⊢
      rw [greedy, greedy, stop, ih]
      show (if accepts c then _ else _) = Option.map _ (if accepts c then _ else _)
      split
      · exact Option.map_or.symm
      · rfl
    | mark k source =>
      obtain ⟨c, t, eq, rejected⟩ := heads k
      have split : (Symbol.mark k source :: ss).flatMap (Symbol.shown render) =
          c :: (t ++ ss.flatMap (Symbol.shown render)) := by
        rw [List.flatMap_cons, Symbol.shown, eq, List.cons_append]
      rw [split] at stop ⊢
      rw [greedy, greedy, stop, rejected]
      rfl

theorem runItems_shown {items : List (Item α)}
    (heads : ∀ k, ∃ c t, render k = c :: t ∧ isWord c = false ∧
      ∀ item ∈ items, item.accepts c = false)
    (prev : Bool) (ss : List (Symbol α κ)) :
    runItems isWord items prev (ss.flatMap (Symbol.shown render)) =
      (runItems (Symbol.lift isWord) (items.map Item.lift) prev ss).map
        (List.flatMap (Symbol.shown render)) := by
  have words : ∀ k, ∃ c t, render k = c :: t ∧ isWord c = false := fun k =>
    (heads k).imp fun c h => h.imp fun t h => ⟨h.1, h.2.1⟩
  induction items generalizing prev ss with
  | nil =>
    rw [runItems, headWord_shown words, List.map_nil, runItems]
    split <;> rfl
  | cons item items ih =>
    have later := ih fun k => (heads k).imp fun c h => h.imp fun t h =>
      ⟨h.1, h.2.1, fun item mem => h.2.2 item (List.mem_cons_of_mem _ mem)⟩
    cases item with
    | many n accepts =>
      exact greedy_shown (fun k => (heads k).imp fun c h => h.imp fun t h =>
        ⟨h.1, h.2.2 _ List.mem_cons_self⟩) later n prev ss
    | one accepts =>
      cases ss with
      | nil => rfl
      | cons x ss =>
        cases x with
        | plain c =>
          show (if accepts c then _ else _) = Option.map _ (if accepts c then _ else _)
          split
          · exact later (isWord c) ss
          · rfl
        | mark k source =>
          obtain ⟨c, t, eq, -, rejected⟩ := heads k
          rw [List.flatMap_cons, Symbol.shown, eq, List.cons_append, runItems,
            show accepts c = false from rejected _ List.mem_cons_self]
          rfl

theorem findSome?_eq_map {β γ δ : Type} {l : List β} {f : β → Option γ} {g : β → Option δ}
    {r : δ → γ} (h : ∀ x ∈ l, f x = (g x).map r) :
    l.findSome? f = (l.findSome? g).map r := by
  induction l with
  | nil => rfl
  | cons x l ih =>
    rw [List.forall_mem_cons] at h
    rw [List.findSome?_cons, List.findSome?_cons, h.1, ih h.2]
    cases g x <;> rfl

theorem matchAt_shown (inert : ∀ k, Inert isWord alternatives (render k)) (prev : Bool)
    (ss : List (Symbol α κ)) :
    matchAt isWord alternatives prev (ss.flatMap (Symbol.shown render)) =
      (matchAt (Symbol.lift isWord) (liftAll alternatives) prev ss).map
        (List.flatMap (Symbol.shown render)) := by
  rw [matchAt, matchAt, headWord_shown fun k => (inert k).head.imp fun c h => h.imp fun t h =>
    ⟨h.1, h.2.word⟩]
  split
  · rfl
  · rw [liftAll, List.findSome?_map]
    refine findSome?_eq_map fun items alternative => runItems_shown (fun k => ?_) prev ss
    obtain ⟨c, t, eq, blocks⟩ := (inert k).head
    exact ⟨c, t, eq, blocks.word, blocks.rejected items alternative⟩

/-- What a search among symbols does with the text that is shown. -/
def Event.shown (render : κ → List α) : Event (Symbol α κ) → List (Event α)
  | .keep x => (x.shown render).map .keep
  | .hit m => [.hit (sourceOf m)]

def Event.isHit : Event α → Bool
  | .keep _ => false
  | .hit _ => true

/-- A search for one match is a global search for any. -/
theorem test_eq_any (begins : Begins isWord alternatives) :
    test isWord alternatives prev s =
      (events isWord alternatives 0 prev s).any Event.isHit := by
  induction s generalizing prev with
  | nil =>
    rw [test, matchAt_nil begins]
    rfl
  | cons c s ih =>
    rw [test, events]
    cases matchAt isWord alternatives prev (c :: s) with
    | none => exact ih
    | some rest => rfl

theorem shown_plain (u : List α) :
    (u.map .plain : List (Symbol α κ)).flatMap (Symbol.shown render) = u := by
  rw [List.flatMap_map]
  exact List.flatMap_singleton' u

/-- A search of the text that is shown is a search among the symbols. -/
theorem events_shown (begins : Begins isWord alternatives)
    (inert : ∀ k, Inert isWord alternatives (render k)) (prev : Bool) (ss : List (Symbol α κ)) :
    events isWord alternatives 0 prev (ss.flatMap (Symbol.shown render)) =
      (events (Symbol.lift isWord) (liftAll alternatives) 0 prev ss).flatMap
        (Event.shown render) := by
  induction len : ss.length using Nat.strongRecOn generalizing prev ss with
  | ind n ih =>
    have same := matchAt_shown inert prev ss
    cases found : matchAt (Symbol.lift isWord) (liftAll alternatives) prev ss with
    | some rest =>
      rw [found, Option.map_some] at same
      obtain ⟨m, rfl, lifted, -, -, eq⟩ := events_hit (begins_liftAll begins) found
      obtain ⟨u, rfl, spells⟩ := spells_liftAll lifted
      obtain ⟨m, split, -, -, -, eq'⟩ := events_hit begins same
      rw [List.flatMap_append, shown_plain] at split
      obtain rfl := List.append_cancel_right split
      obtain ⟨c, t, rfl, -⟩ := begins.spells spells
      have shorter : rest.length < n := by
        rw [← len, List.length_append, List.length_map, List.length_cons]
        omega
      rw [eq, eq', lastWord_plain, List.flatMap_cons, ← ih rest.length shorter _ rest rfl]
      show _ = [Event.hit (sourceOf _)] ++ _
      rw [sourceOf_plain]
      rfl
    | none =>
      rw [found, Option.map_none] at same
      cases ss with
      | nil => rfl
      | cons x ss =>
        rw [events_keep found, List.flatMap_cons, List.flatMap_cons,
          ← ih ss.length (by simp [← len]) _ ss rfl]
        cases x with
        | plain c => exact events_keep same
        | mark k source => exact (inert k).kept prev _

theorem any_shown (es : List (Event (Symbol α κ))) :
    (es.flatMap (Event.shown render)).any Event.isHit = es.any Event.isHit := by
  induction es with
  | nil => rfl
  | cons e es ih =>
    rw [List.flatMap_cons, List.any_append, ih, List.any_cons]
    cases e with
    | hit m => rfl
    | keep x =>
      have none : ((x.shown render).map Event.keep).any Event.isHit = false := by
        simp [Event.isHit]
      rw [Event.shown, none, Event.isHit]

/-- The text that is shown has a match if there is one among the symbols. -/
theorem test_shown (prev : Bool) (ss : List (Symbol α κ)) (begins : Begins isWord alternatives)
    (inert : ∀ k, Inert isWord alternatives (render k)) :
    test isWord alternatives prev (ss.flatMap (Symbol.shown render)) =
      test (Symbol.lift isWord) (liftAll alternatives) prev ss := by
  rw [test_eq_any begins, events_shown begins inert, any_shown, test_eq_any (begins_liftAll begins)]

/-- The text with each hit replaced. -/
def replaced (word : List α) (es : List (Event α)) : List α :=
  es.flatMap fun
    | .keep c => [c]
    | .hit _ => word

/-- Where the hits are in the text that was searched. -/
def offsets : Nat → List (Event α) → List Nat
  | _, [] => []
  | i, .keep _ :: es => offsets (i + 1) es
  | i, .hit m :: es => i :: offsets (i + m.length) es

theorem replaced_keep (word u : List α) : replaced word (u.map .keep) = u := by
  rw [replaced, List.flatMap_map]
  exact List.flatMap_singleton' u

/-- What replaces the hits is what is shown for the marks. -/
theorem replaced_shown (k : κ) (es : List (Event (Symbol α κ))) :
    replaced (render k) (es.flatMap (Event.shown render)) =
      (collapse k es).flatMap (Symbol.shown render) := by
  induction es with
  | nil => rfl
  | cons e es ih =>
    rw [List.flatMap_cons, replaced, List.flatMap_append, ← replaced, ← replaced, ih]
    cases e with
    | keep x =>
      rw [Event.shown, replaced_keep]
      rfl
    | hit m =>
      rw [Event.shown, replaced, List.flatMap_singleton]
      rfl

theorem mem_of_keep {skip : Nat} {c : α}
    (h : .keep c ∈ events isWord alternatives skip prev s) : c ∈ s := by
  induction s generalizing skip prev with
  | nil => cases skip <;> cases h
  | cons d s ih =>
    cases skip with
    | succ skip => exact List.mem_cons_of_mem d (ih h)
    | zero =>
      rw [events] at h
      split at h
      · exact List.mem_cons_of_mem d (ih ((List.mem_cons.mp h).resolve_left (by simp)))
      · rcases List.mem_cons.mp h with eq | h
        · cases eq
          exact List.mem_cons_self
        · exact List.mem_cons_of_mem d (ih h)

/-! ### Where the marks are -/

section Places

variable [DecidableEq κ]

/-- Where the marks of a kind are, if the symbols are that wide. -/
def places (width : Symbol α κ → Nat) (k : κ) : Nat → List (Symbol α κ) → List Nat
  | _, [] => []
  | i, .plain c :: ss => places width k (i + width (.plain c)) ss
  | i, .mark j source :: ss =>
    let later := places width k (i + width (.mark j source)) ss
    if j = k then i :: later else later

variable {width : Symbol α κ → Nat} {j : κ}

theorem places_plain (plain : ∀ c, width (.plain c) = 1) (i : Nat) (u : List α) :
    places width k i (u.map .plain ++ ss) = places width k (i + u.length) ss := by
  induction u generalizing i with
  | nil => rfl
  | cons c u ih =>
    rw [List.map_cons, List.cons_append, places, plain, ih, List.length_cons, Nat.add_assoc,
      Nat.add_comm 1]

/-- A pass for one kind of marks moves no mark of another one, if its marks are as wide as what
they stand for. -/
theorem places_passed (passed : Passed isWord alternatives j prev ss ss') (ne : j ≠ k)
    (plain : ∀ c, width (.plain c) = 1) (mark : ∀ u, width (.mark j u) = u.length) (i : Nat) :
    places width k i ss' = places width k i ss := by
  induction passed generalizing i with
  | nil => rfl
  | @keep _ x _ _ _ _ ih =>
    cases x with
    | plain c => exact ih _
    | mark l source => rw [places, places, ih]
  | hit _ _ _ ih => rw [places_plain plain, places, if_neg ne, mark, ih]

theorem offsets_keep (i : Nat) (u : List α) (es : List (Event α)) :
    offsets i (u.map .keep ++ es) = offsets (i + u.length) es := by
  induction u generalizing i with
  | nil => rfl
  | cons c u ih =>
    rw [List.map_cons, List.cons_append, offsets, ih, List.length_cons, Nat.add_assoc,
      Nat.add_comm 1]

theorem places_length (width width' : Symbol α κ → Nat) (i i' : Nat) :
    (places width k i ss).length = (places width' k i' ss).length := by
  induction ss generalizing i i' with
  | nil => rfl
  | cons x ss ih =>
    cases x with
    | plain c => exact ih _ _
    | mark l u =>
      rw [places, places]
      split
      · exact congrArg (· + 1) (ih _ _)
      · exact ih _ _

/-- The marks of a kind are at the same places for two widths if what is ahead of each of them is as
wide. -/
theorem places_eq_iff {width width' : Symbol α κ → Nat} {i i' : Nat} :
    places width k i ss = places width' k i' ss ↔
      ∀ before u after, ss = before ++ .mark k u :: after →
        i + (before.map width).sum = i' + (before.map width').sum := by
  induction ss generalizing i i' with
  | nil => simp [places]
  | cons x ss ih =>
    have later : (∀ before u after, ss = before ++ .mark k u :: after →
        i + width x + (before.map width).sum = i' + width' x + (before.map width').sum) ↔
        ∀ before u after, ss = before ++ .mark k u :: after →
          i + ((x :: before).map width).sum = i' + ((x :: before).map width').sum := by
      simp only [List.map_cons, List.sum_cons, Nat.add_assoc]
    have split : (∀ before u after, x :: ss = before ++ .mark k u :: after →
        i + (before.map width).sum = i' + (before.map width').sum) ↔
        ((∃ u, x = .mark k u) → i = i') ∧ ∀ before u after, ss = before ++ .mark k u :: after →
          i + ((x :: before).map width).sum = i' + ((x :: before).map width').sum := by
      constructor
      · intro h
        constructor
        · rintro ⟨u, rfl⟩
          simpa using h [] u ss rfl
        · rintro before u after rfl
          exact h (x :: before) u after rfl
      · rintro ⟨first, h⟩ before u after eq
        cases before with
        | nil => simpa using first ⟨u, (List.cons.inj eq).1⟩
        | cons y before =>
          obtain ⟨rfl, behind⟩ := List.cons.inj eq
          exact h before u after behind
    rw [split, ← later, ← ih]
    cases x with
    | plain c => simp [places]
    | mark l u =>
      rw [places, places]
      by_cases same : l = k <;> simp [same]

/-- The offsets of the hits, in the text that is shown, are the places of the new marks. -/
theorem offsets_shown {es : List (Event (Symbol α κ))} (plain : ∀ c, width (.plain c) = 1)
    (mark : ∀ u, width (.mark k u) = u.length)
    (old : ∀ l u, .keep (.mark l u) ∈ es → l ≠ k ∧ width (.mark l u) = (render l).length)
    (i : Nat) :
    offsets i (es.flatMap (Event.shown render)) = places width k i (collapse k es) := by
  induction es generalizing i with
  | nil => rfl
  | cons e es ih =>
    have later := ih fun l u mem => old l u (List.mem_cons_of_mem _ mem)
    rw [List.flatMap_cons]
    cases e with
    | hit m =>
      show offsets i (.hit (sourceOf m) :: _) =
        places width k i (.mark k (sourceOf m) :: collapse k es)
      rw [offsets, places, if_pos rfl, mark, ← later]
      rfl
    | keep x =>
      show offsets i ((x.shown render).map .keep ++ _) = places width k i (x :: collapse k es)
      rw [offsets_keep, later]
      cases x with
      | plain c => rw [places, plain]; rfl
      | mark l u =>
        obtain ⟨ne, eq⟩ := old l u List.mem_cons_self
        rw [places, if_neg ne, eq]
        rfl

end Places

/-! ### Matches in the source -/

/-- Each mark is a match of its pattern at its place in the source. -/
def Located (isWord : α → Bool) (patterns : κ → List (List (Item α))) :
    Bool → List (Symbol α κ) → Prop
  | _, [] => True
  | _, .plain c :: ss => Located isWord patterns (isWord c) ss
  | prev, .mark k u :: ss =>
    prev = false ∧ Spells (patterns k) u ∧
      lastWord isWord prev u ≠ headWord isWord (sourceOf ss) ∧
      Located isWord patterns (lastWord isWord prev u) ss

theorem located_text {patterns : κ → List (List (Item α))} (u : List α) :
    Located isWord patterns prev (u.map .plain) := by
  induction u generalizing prev with
  | nil => trivial
  | cons c u ih => exact ih

theorem located_plain {patterns : κ → List (List (Item α))} {u : List α}
    (h : Located isWord patterns prev (u.map .plain ++ ss)) :
    Located isWord patterns (lastWord isWord prev u) ss := by
  induction u generalizing prev with
  | nil => exact h
  | cons c u ih => exact ih h

/-- What came before a position of the source: the same as among the symbols, or a mark came last,
and it ends at a boundary. -/
def Precedes (isWord : α → Bool) (prev' prev : Bool) (ss : List (Symbol α κ)) : Prop :=
  prev' = prev ∨ prev' = false ∧ prev ≠ headWord isWord (sourceOf ss)

theorem located_passed {patterns : κ → List (List (Item α))} {prev' : Bool}
    (begins : Begins isWord (patterns k))
    (passed : Passed isWord (patterns k) k prev' ss ss') (precedes : Precedes isWord prev' prev ss)
    (h : Located isWord patterns prev ss) : Located isWord patterns prev ss' := by
  induction passed generalizing prev with
  | nil => trivial
  | @keep _ x ss ss' _ passed ih =>
    cases x with
    | plain c => exact ih (.inl rfl) h
    | mark j u =>
      obtain ⟨quiet, spells, ends, h⟩ := h
      refine ⟨quiet, spells, ?_, ih (.inr ⟨rfl, ends⟩) h⟩
      rwa [sourceOf_passed passed]
  | @hit u ss ss' spells ends passed ih =>
    have quiet : prev = false := by
      rcases precedes with same | ⟨-, ne⟩
      · exact same.symm
      · obtain ⟨c, t, rfl, word⟩ := begins.spells spells
        exact Bool.eq_false_iff.mpr (ne_of_ne_of_eq ne word)
    subst quiet
    have later := located_plain h
    refine ⟨rfl, spells, ?_, ih (.inl rfl) later⟩
    rw [sourceOf_passed passed]
    cases ss with
    | nil => exact ends
    | cons x ss =>
      cases x with
      | plain c => exact ends
      | mark j v => exact absurd later.1 ends

end Pass

end WordPattern
