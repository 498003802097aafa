import Declaragent.Library.RegExp

/-!
# Library — sources with classes

A reader of regular expressions that takes any class of characters and ranges, without groups,
alternatives and counted repetitions.  Behind a bracket that opens a class, everything up to the
next closing one is the class; a closing bracket elsewhere is itself.

* `readSource_anchored`: the texts of terms one after another.
* `exists_words`: terms that each accept something have a word with one character for each term
  that is not starred.
* `length_of_pairs`: a word of few terms has few segments with a line terminator.
-/

namespace RegExp

/-! ### Reading -/

/-- What the atoms of a class, each with whether it was escaped, stand for: a hyphen between two of
them makes a range, which has to be in order. -/
def ranges : List (CodeUnit × Bool) → Option (List (CodeUnit × CodeUnit))
  | [] => some []
  | [a] => some [(a.1, a.1)]
  | [a, b] => some [(a.1, a.1), (b.1, b.1)]
  | a :: d :: b :: rest =>
    if d = (unit '-', false) then
      if a.1 ≤ b.1 then (ranges rest).map ((a.1, b.1) :: ·) else none
    else (ranges (d :: b :: rest)).map ((a.1, a.1) :: ·)

/-- What a class accepts. -/
def classOf (negated : Bool) (rs : List (CodeUnit × CodeUnit)) : CodeUnit → Bool := fun c =>
  (rs.any fun r => decide (r.1 ≤ c) && decide (c ≤ r.2)) != negated

/-- Where the reader is: between terms or in a class, which it may have just opened, and behind a
backslash or not. -/
inductive Reader where
  | plain
  | escaped
  | inClass (fresh negated : Bool) (atoms : List (CodeUnit × Bool))
  | escapedInClass (negated : Bool) (atoms : List (CodeUnit × Bool))

/-- Read on, with what was read already, the last first. -/
def readOn : Reader → List (Node CodeUnit) → List CodeUnit → Option (List (Node CodeUnit))
  | .plain, done, [] => some done.reverse
  | .plain, done, c :: s =>
    if c = unit '^' then readOn .plain (.begins :: done) s
    else if c = unit '$' then readOn .plain (.ends :: done) s
    else if c = unit '.' then readOn .plain (.term ⟨dot, false⟩ :: done) s
    else if c = unit '*' then (starLast done).bind fun done => readOn .plain done s
    else if c = unit '\\' then readOn .escaped done s
    else if c = unit '[' then readOn (.inClass true false []) done s
    else if c = unit ']' ∨ c = unit '}' ∨ c ∉ syntaxCharacters then
      readOn .plain (.term ⟨only c, false⟩ :: done) s
    else none
  | .escaped, done, c :: s =>
    if c ∈ syntaxCharacters then readOn .plain (.term ⟨only c, false⟩ :: done) s else none
  | .inClass fresh negated atoms, done, c :: s =>
    if c = unit '^' ∧ fresh = true then readOn (.inClass false true []) done s
    else if c = unit ']' then
      (ranges atoms).bind fun rs => readOn .plain (.term ⟨classOf negated rs, false⟩ :: done) s
    else if c = unit '\\' then readOn (.escapedInClass negated atoms) done s
    else readOn (.inClass false negated (atoms ++ [(c, false)])) done s
  | .escapedInClass negated atoms, done, c :: s =>
    if c ∈ syntaxCharacters then readOn (.inClass false negated (atoms ++ [(c, true)])) done s
    else none
  | .escaped, _, [] | .inClass .., _, [] | .escapedInClass .., _, [] => none

/-- `new RegExp(source)`: `none` where the source is no such expression. -/
def readSource (source : List CodeUnit) : Option (List (Node CodeUnit)) := readOn .plain [] source

/-- The text reads as the term, whatever comes before and after it. -/
def Reads (text : List CodeUnit) (t : Term CodeUnit) : Prop :=
  ∀ done s, readOn .plain done (text ++ s) = readOn .plain (.term t :: done) s

theorem reads_dot : Reads [unit '.'] ⟨dot, false⟩ := fun _ _ => rfl

theorem reads_escaped {c : CodeUnit} (h : c ∈ syntaxCharacters) :
    Reads [unit '\\', c] ⟨only c, false⟩ := by
  intro done s
  change readOn .escaped done (c :: s) = _
  exact if_pos h

theorem reads_plain {c : CodeUnit} (h : c ∉ syntaxCharacters ∨ c = unit ']') :
    Reads [c] ⟨only c, false⟩ := by
  intro done s
  have ne (d : CodeUnit) (mem : d ∈ syntaxCharacters) (other : d ≠ unit ']') : c ≠ d := by
    rintro rfl
    rcases h with h | h
    · exact h mem
    · exact other h
  change readOn .plain done (c :: s) = _
  rw [readOn, if_neg (ne _ (by decide) (by decide)), if_neg (ne _ (by decide) (by decide)),
    if_neg (ne _ (by decide) (by decide)), if_neg (ne _ (by decide) (by decide)),
    if_neg (ne _ (by decide) (by decide)), if_neg (ne _ (by decide) (by decide)), if_pos]
  tauto

/-- A star behind the text stars the term. -/
theorem Reads.starred {text : List CodeUnit} {accepts : CodeUnit → Bool}
    (h : Reads text ⟨accepts, false⟩) : Reads (text ++ [unit '*']) ⟨accepts, true⟩ := by
  intro done s
  rw [List.append_assoc, h]
  rfl

/-- Every character but one. -/
theorem reads_except {x : CodeUnit} (h : x ≠ unit ']') (h' : x ≠ unit '\\') :
    Reads [unit '[', unit '^', x, unit ']'] ⟨classOf true [(x, x)], false⟩ := by
  intro done s
  change readOn (.inClass false true []) done (x :: unit ']' :: s) = _
  refine (if_neg fun h => by cases h.2).trans ?_
  rw [if_neg h, if_neg h']
  rfl

theorem classOf_except {x c : CodeUnit} : classOf true [(x, x)] c = true ↔ c ≠ x := by
  have one : (classOf true [(x, x)] c = true) ↔ ¬(x ≤ c ∧ c ≤ x) := by
    change ((decide (x ≤ c) && decide (c ≤ x) || false) != true) = true ↔ _
    rw [Bool.or_false, bne_iff_ne, ne_eq, Bool.and_eq_true, decide_eq_true_eq, decide_eq_true_eq]
  rw [one]
  constructor
  · rintro h rfl
    exact h ⟨UInt16.le_refl c, UInt16.le_refl c⟩
  · rintro ne ⟨le, le'⟩
    exact ne (UInt16.le_antisymm le' le)

/-- **Reading.**  The texts of terms one after another, between `^` and `$`. -/
theorem readSource_anchored {texts : List (List CodeUnit)} {terms : List (Term CodeUnit)}
    (h : List.Forall₂ Reads texts terms) :
    readSource (unit '^' :: (texts.flatten ++ [unit '$'])) =
      some (.begins :: (terms.map .term ++ [.ends])) := by
  have onward : ∀ done, readOn .plain done (texts.flatten ++ [unit '$']) =
      some (done.reverse ++ (terms.map .term ++ [.ends])) := by
    induction h with
    | nil =>
      intro done
      change some (.ends :: done).reverse = _
      simp
    | @cons text t texts terms reads _ ih =>
      intro done
      rw [List.flatten_cons, List.append_assoc, reads, ih]
      simp
  exact onward [.begins]

/-! ### Words and their lengths -/

variable {α : Type} {terms : List (Term α)} {s : List α}

/-- How many terms are not starred. -/
def solid (terms : List (Term α)) : Nat := terms.countP fun t => !t.starred

theorem solid_cons (t : Term α) (terms : List (Term α)) :
    solid (t :: terms) = solid terms + if t.starred = true then 0 else 1 := by
  rw [solid, List.countP_cons]
  cases t.starred <;> rfl

theorem exists_words
    (inhabited : ∀ t ∈ terms, t.starred = false → ∃ c, t.accepts c = true) :
    ∃ s, Words terms s ∧ s.length = solid terms := by
  induction terms with
  | nil => exact ⟨[], .nil, rfl⟩
  | cons t terms ih =>
    rw [List.forall_mem_cons] at inhabited
    obtain ⟨s, words, length⟩ := ih inhabited.2
    obtain ⟨accepts, starred⟩ := t
    cases starred with
    | true => exact ⟨[] ++ s, .starred (by simp) words, by simpa [solid] using length⟩
    | false =>
      obtain ⟨c, accepted⟩ := inhabited.1 rfl
      exact ⟨c :: s, .once accepted words, by simpa [solid] using length⟩

theorem Words.inhabited (h : Words terms s) :
    ∀ t ∈ terms, t.starred = false → ∃ c, t.accepts c = true := by
  induction h with
  | nil => simp
  | once accepted _ ih => exact List.forall_mem_cons.mpr ⟨fun _ => ⟨_, accepted⟩, ih⟩
  | starred _ _ ih => exact List.forall_mem_cons.mpr ⟨(fun h => by cases h), ih⟩

/-- Of two characters that no starred term accepts both, a word has them one behind the other at
most as often as it has terms. -/
theorem length_of_pairs {a b : α}
    (apart : ∀ t ∈ terms, t.starred = true → t.accepts a = true → t.accepts b = false)
    (h : Words terms s) :
    ∀ n, (List.replicate n [a, b]).flatten.Sublist s → n ≤ terms.length := by
  induction h with
  | nil =>
    rintro (_ | n) pairs
    · exact Nat.le_refl 0
    · simp [List.replicate_succ] at pairs
  | once _ _ ih =>
    have ih := ih fun t mem => apart t (List.mem_cons_of_mem _ mem)
    rintro (_ | n) pairs
    · exact Nat.zero_le _
    · rw [List.replicate_succ, List.flatten_cons] at pairs
      cases pairs with
      | cons _ pairs =>
        have := ih (n + 1) (by rwa [List.replicate_succ, List.flatten_cons])
        exact Nat.le_succ_of_le this
      | cons_cons _ pairs => exact Nat.succ_le_succ (ih n (List.sublist_of_cons_sublist pairs))
  | @starred accepts r terms s all _ ih =>
    have ih := ih fun t mem => apart t (List.mem_cons_of_mem _ mem)
    rintro (_ | n) pairs
    · exact Nat.zero_le _
    · rw [List.replicate_succ, List.flatten_cons] at pairs
      obtain ⟨l₁, l₂, split, first, second⟩ := List.sublist_append_iff.mp pairs
      -- What the star takes of the first pair: nothing, one of the two, or both.
      rcases l₁ with _ | ⟨x, _ | ⟨y, l₁⟩⟩
      · have := ih (n + 1) (by
          rw [List.replicate_succ, List.flatten_cons, split]
          exact second)
        exact Nat.le_succ_of_le this
      · obtain ⟨rfl, rfl⟩ := List.cons.inj split
        exact Nat.succ_le_succ (ih n (List.sublist_of_cons_sublist second))
      · obtain ⟨rfl, rest⟩ := List.cons.inj split
        obtain ⟨rfl, -⟩ := List.cons.inj rest
        have both : accepts b = false := apart ⟨accepts, true⟩ List.mem_cons_self rfl
          (all a (first.subset List.mem_cons_self))
        rw [all b (first.subset (List.mem_cons_of_mem _ List.mem_cons_self))] at both
        cases both

end RegExp
