import Mathlib.Data.List.Forall2

/-!
# Library — regular expressions

The regular expressions of the language without groups and alternatives: a sequence of terms, each
a class of characters that may be starred, and of assertions that the text begins or ends.
`test` looks for a match anywhere in the text, as `RegExp.prototype.test` does.

`Words terms` is the language of a sequence of terms.

* `test_anchored`: a sequence of terms between `^` and `$` finds exactly the words of its
  language.
* `parse` reads the source text of such an expression; `parse_anchored` is what it makes of the
  texts of terms between `^` and `$`.
-/

namespace RegExp

variable {α : Type}

/-- The characters of a class, once or any number of times. -/
structure Term (α : Type) where
  accepts : α → Bool
  starred : Bool

inductive Node (α : Type) where
  | begins
  | ends
  | term (t : Term α)

/-! ### Matching -/

/-- Any number of accepted characters, then `k`; the flag says that the text begins here. -/
def iterate (accepts : α → Bool) (k : Bool → List α → Bool) : Bool → List α → Bool
  | atStart, [] => k atStart []
  | atStart, c :: s => k atStart (c :: s) || (accepts c && iterate accepts k false s)

/-- The nodes match a prefix of the text. -/
def matchHere : List (Node α) → Bool → List α → Bool
  | [], _, _ => true
  | .begins :: nodes, atStart, s => atStart && matchHere nodes atStart s
  | .ends :: nodes, atStart, s => s.isEmpty && matchHere nodes atStart s
  | .term ⟨accepts, true⟩ :: nodes, atStart, s => iterate accepts (matchHere nodes) atStart s
  | .term ⟨_, false⟩ :: _, _, [] => false
  | .term ⟨accepts, false⟩ :: nodes, _, c :: s => accepts c && matchHere nodes false s

/-- The nodes match somewhere from here on. -/
def search (nodes : List (Node α)) : Bool → List α → Bool
  | atStart, [] => matchHere nodes atStart []
  | atStart, c :: s => matchHere nodes atStart (c :: s) || search nodes false s

/-- `regexp.test(s)`. -/
def test (nodes : List (Node α)) (s : List α) : Bool := search nodes true s

/-! ### Languages -/

/-- The words that a sequence of terms describes. -/
inductive Words : List (Term α) → List α → Prop where
  | nil : Words [] []
  | once {accepts : α → Bool} {c : α} {terms : List (Term α)} {s : List α}
      (hc : accepts c = true) (h : Words terms s) : Words (⟨accepts, false⟩ :: terms) (c :: s)
  | starred {accepts : α → Bool} {r : List α} {terms : List (Term α)} {s : List α}
      (hr : ∀ c ∈ r, accepts c = true) (h : Words terms s) :
      Words (⟨accepts, true⟩ :: terms) (r ++ s)

theorem iterate_iff {accepts : α → Bool} {k : Bool → List α → Bool} {P : List α → Prop}
    (hk : ∀ atStart s, k atStart s = true ↔ P s) (atStart : Bool) (s : List α) :
    iterate accepts k atStart s = true ↔
      ∃ r t, s = r ++ t ∧ (∀ c ∈ r, accepts c = true) ∧ P t := by
  induction s generalizing atStart with
  | nil =>
    rw [iterate, hk]
    constructor
    · intro h
      exact ⟨[], [], rfl, by simp, h⟩
    · rintro ⟨r, t, hs, -, ht⟩
      obtain ⟨-, rfl⟩ := List.append_eq_nil_iff.mp hs.symm
      exact ht
  | cons c s ih =>
    rw [iterate, Bool.or_eq_true, Bool.and_eq_true, hk, ih]
    constructor
    · rintro (h | ⟨hc, r, t, rfl, hr, ht⟩)
      · exact ⟨[], c :: s, rfl, by simp, h⟩
      · exact ⟨c :: r, t, rfl, by simpa using ⟨hc, hr⟩, ht⟩
    · rintro ⟨r, t, hs, hr, ht⟩
      cases r with
      | nil =>
        left
        rwa [hs]
      | cons d r =>
        obtain ⟨rfl, rfl⟩ := List.cons.inj hs
        right
        exact ⟨hr _ List.mem_cons_self, r, t, rfl, fun e he => hr e (List.mem_cons_of_mem _ he),
          ht⟩

/-- Up to the end of the text. -/
theorem matchHere_ends (terms : List (Term α)) (atStart : Bool) (s : List α) :
    matchHere (terms.map .term ++ [.ends]) atStart s = true ↔ Words terms s := by
  induction terms generalizing atStart s with
  | nil =>
    simp only [List.map_nil, List.nil_append, matchHere, Bool.and_true, List.isEmpty_iff]
    constructor
    · rintro rfl
      exact .nil
    · rintro ⟨⟩
      rfl
  | cons term terms ih =>
    obtain ⟨accepts, starred⟩ := term
    cases starred with
    | true =>
      simp only [List.map_cons, List.cons_append, matchHere]
      rw [iterate_iff ih]
      constructor
      · rintro ⟨r, t, rfl, hr, ht⟩
        exact .starred hr ht
      · rintro (_ | _ | ⟨hr, ht⟩)
        exact ⟨_, _, rfl, hr, ht⟩
    | false =>
      cases s with
      | nil =>
        simp only [List.map_cons, List.cons_append, matchHere]
        exact ⟨fun h => (by cases h), fun h => (by cases h)⟩
      | cons c s =>
        simp only [List.map_cons, List.cons_append, matchHere, Bool.and_eq_true, ih]
        constructor
        · rintro ⟨hc, hs⟩
          exact .once hc hs
        · rintro (_ | ⟨hc, hs⟩)
          exact ⟨hc, hs⟩

theorem search_begins (nodes : List (Node α)) (s : List α) :
    search (.begins :: nodes) false s = false := by
  induction s with
  | nil => rfl
  | cons c s ih => rw [search, ih]; rfl

/-- **Anchored.**  Between `^` and `$`, a text is found exactly when it is a word. -/
theorem test_anchored (terms : List (Term α)) (s : List α) :
    test (.begins :: (terms.map .term ++ [.ends])) s = true ↔ Words terms s := by
  rw [← matchHere_ends terms true s]
  unfold test
  cases s with
  | nil => rfl
  | cons c s =>
    rw [search, search_begins, Bool.or_false]
    rfl

/-- The second term accepts what the first does of the text. -/
def Covers (s : List α) (t t' : Term α) : Prop :=
  t.starred = t'.starred ∧ ∀ c ∈ s, t.accepts c = true → t'.accepts c = true

theorem Covers.of_append {r s : List α} {t t' : Term α} (h : Covers (r ++ s) t t') :
    Covers s t t' :=
  ⟨h.1, fun c hc => h.2 c (List.mem_append_right r hc)⟩

theorem Words.cover {terms terms' : List (Term α)} {s : List α} (h : Words terms s)
    (hcover : List.Forall₂ (Covers s) terms terms') : Words terms' s := by
  induction h generalizing terms' with
  | nil =>
    cases hcover
    exact .nil
  | @once accepts c terms s hc _ ih =>
    obtain _ | @⟨_, ⟨accepts', starred'⟩, _, _, ⟨hstarred, haccepts⟩, hcover⟩ := hcover
    cases hstarred
    exact .once (haccepts c List.mem_cons_self hc)
      (ih (hcover.imp fun _ _ => Covers.of_append (r := [c])))
  | @starred accepts r terms s hr _ ih =>
    obtain _ | @⟨_, ⟨accepts', starred'⟩, _, _, ⟨hstarred, haccepts⟩, hcover⟩ := hcover
    cases hstarred
    exact .starred (fun c hc => haccepts c (List.mem_append_left _ hc) (hr c hc))
      (ih (hcover.imp fun _ _ => Covers.of_append))

/-! ### Source text -/

/-- A string is a sequence of 16-bit code units. -/
abbrev CodeUnit := UInt16

def unit (c : Char) : CodeUnit := UInt16.ofNat c.toNat

/-- The characters that stand for themselves only after a backslash. -/
def syntaxCharacters : List CodeUnit :=
  ['^', '$', '\\', '.', '*', '+', '?', '(', ')', '[', ']', '{', '}', '|'].map unit

/-- LF, CR, U+2028 and U+2029: what `.` does not match. -/
def isLineTerminator (c : CodeUnit) : Bool := c == 10 || c == 13 || c == 8232 || c == 8233

def dot : CodeUnit → Bool := fun c => !isLineTerminator c

def only (x : CodeUnit) : CodeUnit → Bool := fun c => c == x

def except (x : CodeUnit) : CodeUnit → Bool := fun c => c != x

/-- Where the reader is: between terms, behind a backslash, or in a class `[^x]`. -/
inductive Scan where
  | plain
  | escaped
  | opened
  | negated
  | excluded (x : CodeUnit)

/-- A star after what was read. -/
def starLast : List (Node CodeUnit) → Option (List (Node CodeUnit))
  | .term ⟨accepts, false⟩ :: done => some (.term ⟨accepts, true⟩ :: done)
  | _ => none

/-- Read on, with what was read already, the last first. -/
def scan : Scan → List (Node CodeUnit) → List CodeUnit → Option (List (Node CodeUnit))
  | .plain, done, [] => some done.reverse
  | .plain, done, c :: s =>
    if c = unit '^' then scan .plain (.begins :: done) s
    else if c = unit '$' then scan .plain (.ends :: done) s
    else if c = unit '.' then scan .plain (.term ⟨dot, false⟩ :: done) s
    else if c = unit '*' then (starLast done).bind fun done => scan .plain done s
    else if c = unit '\\' then scan .escaped done s
    else if c = unit '[' then scan .opened done s
    else if c ∈ syntaxCharacters then none
    else scan .plain (.term ⟨only c, false⟩ :: done) s
  | .escaped, done, c :: s =>
    if c ∈ syntaxCharacters then scan .plain (.term ⟨only c, false⟩ :: done) s else none
  | .opened, done, c :: s => if c = unit '^' then scan .negated done s else none
  | .negated, done, c :: s =>
    if c = unit ']' ∨ c = unit '\\' then none else scan (.excluded c) done s
  | .excluded x, done, c :: s =>
    if c = unit ']' then scan .plain (.term ⟨except x, false⟩ :: done) s else none
  | .escaped, _, [] | .opened, _, [] | .negated, _, [] | .excluded _, _, [] => none

/-- `new RegExp(source)`: `none` where the source is no such expression, or one with groups,
alternatives, counted repetitions or other classes. -/
def parse (source : List CodeUnit) : Option (List (Node CodeUnit)) := scan .plain [] source

/-- The text reads as the term, whatever comes before and after it. -/
def Spells (text : List CodeUnit) (t : Term CodeUnit) : Prop :=
  ∀ done s, scan .plain done (text ++ s) = scan .plain (.term t :: done) s

theorem spells_dot : Spells [unit '.'] ⟨dot, false⟩ := fun _ _ => rfl

theorem spells_except {x : CodeUnit} (h : x ≠ unit ']') (h' : x ≠ unit '\\') :
    Spells [unit '[', unit '^', x, unit ']'] ⟨except x, false⟩ := by
  intro done s
  change scan .negated done (x :: unit ']' :: s) = _
  rw [scan, if_neg (not_or.mpr ⟨h, h'⟩)]
  rfl

theorem spells_escaped {c : CodeUnit} (h : c ∈ syntaxCharacters) :
    Spells [unit '\\', c] ⟨only c, false⟩ := by
  intro done s
  change scan .escaped done (c :: s) = _
  rw [scan, if_pos h]

theorem spells_plain {c : CodeUnit} (h : c ∉ syntaxCharacters) :
    Spells [c] ⟨only c, false⟩ := by
  intro done s
  have hne : ∀ d ∈ syntaxCharacters, c ≠ d := fun d hd e => h (e ▸ hd)
  change scan .plain done (c :: s) = _
  rw [scan, if_neg (hne _ (by decide)), if_neg (hne _ (by decide)), if_neg (hne _ (by decide)),
    if_neg (hne _ (by decide)), if_neg (hne _ (by decide)), if_neg (hne _ (by decide)), if_neg h]

/-- A star behind the text stars the term. -/
theorem Spells.starred {text : List CodeUnit} {accepts : CodeUnit → Bool}
    (h : Spells text ⟨accepts, false⟩) : Spells (text ++ [unit '*']) ⟨accepts, true⟩ := by
  intro done s
  rw [List.append_assoc, h]
  rfl

/-- **Reading.**  The texts of terms one after another, between `^` and `$`. -/
theorem parse_anchored {texts : List (List CodeUnit)} {terms : List (Term CodeUnit)}
    (h : List.Forall₂ Spells texts terms) :
    parse (unit '^' :: (texts.flatten ++ [unit '$'])) =
      some (.begins :: (terms.map .term ++ [.ends])) := by
  have hscan : ∀ done, scan .plain done (texts.flatten ++ [unit '$']) =
      some (done.reverse ++ (terms.map .term ++ [.ends])) := by
    induction h with
    | nil =>
      intro done
      change some (.ends :: done).reverse = _
      simp
    | @cons text t texts terms ht _ ih =>
      intro done
      rw [List.flatten_cons, List.append_assoc, ht, ih]
      simp
  exact hscan [.begins]

end RegExp
