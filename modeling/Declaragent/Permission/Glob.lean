import Declaragent.Library.RegExp

/-!
# Permission — globs

The pattern of a permission rule is a glob: `*` is any run of characters without `/`, `**` any
run at all, `?` one character but `/`, and everything else is itself.  `Glob` says so; where stars
stand side by side it allows every reading of them.

`compileGlob` turns a glob into the source of a regular expression, piece by piece.

* `compileGlob_eq`: the source always reads as the expression it was meant to be.
* `glob_iff`: the two stars of a `**` are read together, whatever comes after them.
* `globMatches_iff`: what the compiled glob matches.  It is the glob's own language but for the
  runs of `**`, which take no line terminator; `globMatches_iff_glob` is the case of a text that
  has none.
-/

namespace Declaragent.Permission
open RegExp

abbrev JsString := List CodeUnit

/-- What a pattern matches: the documented meaning of `**`, `*`, `?` and the other characters. -/
inductive Glob : JsString → JsString → Prop where
  | nil : Glob [] []
  | doubleStar {pattern s : JsString} (r : JsString) (h : Glob pattern s) :
      Glob (unit '*' :: unit '*' :: pattern) (r ++ s)
  | star {pattern r s : JsString} (hr : ∀ c ∈ r, c ≠ unit '/') (h : Glob pattern s) :
      Glob (unit '*' :: pattern) (r ++ s)
  | question {pattern s : JsString} {c : CodeUnit} (hc : c ≠ unit '/') (h : Glob pattern s) :
      Glob (unit '?' :: pattern) (c :: s)
  | literal {pattern s : JsString} {c : CodeUnit} (hstar : c ≠ unit '*') (hq : c ≠ unit '?')
      (h : Glob pattern s) : Glob (c :: pattern) (c :: s)

/-! ### Compilation -/

/-- The characters of the pattern that are written with a backslash. -/
def metacharacters : List CodeUnit :=
  ['.', '+', '^', '$', '{', '}', '(', ')', '|', '[', ']', '\\'].map unit

/-- What is written for one character of the pattern. -/
def piece (c : CodeUnit) : JsString :=
  if c = unit '*' then ['[', '^', '/', ']', '*'].map unit
  else if c = unit '?' then ['[', '^', '/', ']'].map unit
  else if c ∈ metacharacters then [unit '\\', c]
  else [c]

/-- What the loop writes, `**` first. -/
def pieces : JsString → List JsString
  | [] => []
  | [c] => [piece c]
  | c :: d :: rest =>
    if c = unit '*' ∧ d = unit '*' then [unit '.', unit '*'] :: pieces rest
    else piece c :: pieces (d :: rest)

/-- The source of the regular expression. -/
def globSource (pattern : JsString) : JsString :=
  unit '^' :: ((pieces pattern).flatten ++ [unit '$'])

/-- `new RegExp(source)`. -/
def compileGlob (pattern : JsString) : Option (List (Node CodeUnit)) := parse (globSource pattern)

def globMatches (pattern value : JsString) : Bool :=
  (compileGlob pattern).any fun regex => test regex value

/-! ### The terms of a glob -/

/-- One character of the pattern as a term. -/
def part (c : CodeUnit) : Term CodeUnit :=
  if c = unit '*' then ⟨except (unit '/'), true⟩
  else if c = unit '?' then ⟨except (unit '/'), false⟩
  else ⟨only c, false⟩

/-- The pattern as terms; `deep` are the characters that `**` takes. -/
def parts (deep : CodeUnit → Bool) : JsString → List (Term CodeUnit)
  | [] => []
  | [c] => [part c]
  | c :: d :: rest =>
    if c = unit '*' ∧ d = unit '*' then ⟨deep, true⟩ :: parts deep rest
    else part c :: parts deep (d :: rest)

theorem spells_piece (c : CodeUnit) : Spells (piece c) (part c) := by
  have hslash : Spells (['[', '^', '/', ']'].map unit) ⟨except (unit '/'), false⟩ :=
    spells_except (by decide) (by decide)
  unfold piece part
  by_cases hstar : c = unit '*'
  · rw [if_pos hstar, if_pos hstar]
    exact hslash.starred
  · rw [if_neg hstar, if_neg hstar]
    by_cases hq : c = unit '?'
    · rw [if_pos hq, if_pos hq]
      exact hslash
    · rw [if_neg hq, if_neg hq]
      have hescaped : c ∈ syntaxCharacters ↔ c ∈ metacharacters := by
        simp [syntaxCharacters, metacharacters, hstar, hq]
        tauto
      split
      · rename_i hmeta
        exact spells_escaped (hescaped.mpr hmeta)
      · rename_i hmeta
        exact spells_plain fun h => hmeta (hescaped.mp h)

/-- **Compilation.**  The source of a glob reads as its terms, between `^` and `$`. -/
theorem compileGlob_eq (pattern : JsString) :
    compileGlob pattern = some (.begins :: ((parts dot pattern).map .term ++ [.ends])) := by
  refine parse_anchored ?_
  induction pattern using pieces.induct with
  | case1 => exact .nil
  | case2 c => exact .cons (spells_piece c) .nil
  | case3 c d rest h ih =>
    rw [pieces, parts, if_pos h, if_pos h]
    exact .cons spells_dot.starred ih
  | case4 c d rest h ih =>
    rw [pieces, parts, if_neg h, if_neg h]
    exact .cons (spells_piece c) ih

/-- **What a compiled glob matches.** -/
theorem globMatches_iff {pattern value : JsString} :
    globMatches pattern value = true ↔ Words (parts dot pattern) value := by
  unfold globMatches
  rw [compileGlob_eq, Option.any_some, test_anchored]

/-! ### Side by side -/

theorem parts_cons (deep : CodeUnit → Bool) {c : CodeUnit} {pattern : JsString}
    (h : ¬ (c = unit '*' ∧ pattern.head? = some (unit '*'))) :
    parts deep (c :: pattern) = part c :: parts deep pattern := by
  cases pattern with
  | nil => rfl
  | cons d rest =>
    rw [parts, if_neg]
    simpa using h

theorem parts_doubleStar (deep : CodeUnit → Bool) (pattern : JsString) :
    parts deep (unit '*' :: unit '*' :: pattern) = ⟨deep, true⟩ :: parts deep pattern := by
  rw [parts, if_pos ⟨rfl, rfl⟩]

theorem part_star : part (unit '*') = ⟨except (unit '/'), true⟩ := rfl

theorem except_iff {x c : CodeUnit} : except x c = true ↔ c ≠ x := by simp [except]

/-- Every character. -/
def anything : CodeUnit → Bool := fun _ => true

theorem words_anything_append {terms : List (Term CodeUnit)} {s : JsString} (r : JsString)
    (h : Words (⟨anything, true⟩ :: terms) s) : Words (⟨anything, true⟩ :: terms) (r ++ s) := by
  obtain _ | _ | ⟨_, h⟩ := h
  rw [← List.append_assoc]
  exact .starred (fun _ _ => rfl) h

/-- One more star in front takes nothing away, and adds at most what `**` adds. -/
theorem words_star (pattern : JsString) : ∀ s : JsString,
    (Words (parts anything pattern) s → Words (parts anything (unit '*' :: pattern)) s) ∧
    (Words (parts anything (unit '*' :: pattern)) s →
      Words (⟨anything, true⟩ :: parts anything pattern) s) := by
  induction pattern with
  | nil =>
    intro s
    constructor
    · exact fun h => .starred (r := []) (by simp) h
    · rintro (_ | _ | ⟨_, h⟩)
      exact .starred (fun _ _ => rfl) h
  | cons c pattern ih =>
    intro s
    by_cases hc : c = unit '*'
    · subst hc
      rw [parts_doubleStar]
      refine ⟨(ih s).2, ?_⟩
      rintro (_ | _ | ⟨_, h⟩)
      exact .starred (fun _ _ => rfl) ((ih _).1 h)
    · rw [parts_cons anything (c := unit '*') (by simpa using hc), part_star]
      constructor
      · exact fun h => .starred (r := []) (by simp) h
      · rintro (_ | _ | ⟨_, h⟩)
        exact .starred (fun _ _ => rfl) h

theorem glob_of_part {c : CodeUnit} {pattern value : JsString} {terms : List (Term CodeUnit)}
    (h : Words (part c :: terms) value) (hrest : ∀ {s}, Words terms s → Glob pattern s) :
    Glob (c :: pattern) value := by
  unfold part at h
  split at h
  · rename_i hc
    subst hc
    obtain _ | _ | ⟨hr, h⟩ := h
    exact .star (fun c hc => except_iff.mp (hr c hc)) (hrest h)
  · rename_i hstar
    split at h
    · rename_i hc
      subst hc
      obtain _ | ⟨hc, h⟩ := h
      exact .question (except_iff.mp hc) (hrest h)
    · rename_i hq
      obtain _ | ⟨hc, h⟩ := h
      obtain rfl : _ = c := by simpa [only] using hc
      exact .literal hstar hq (hrest h)

/-- **The documented language.**  However the stars of a pattern are read, it is that of its
terms. -/
theorem glob_iff {pattern value : JsString} :
    Glob pattern value ↔ Words (parts anything pattern) value := by
  constructor
  · intro h
    induction h with
    | nil => exact .nil
    | doubleStar r _ ih =>
      rw [parts_doubleStar]
      exact .starred (fun _ _ => rfl) ih
    | @star pattern r s hr _ ih =>
      by_cases hhead : pattern.head? = some (unit '*')
      · obtain ⟨pattern, rfl⟩ : ∃ rest, pattern = unit '*' :: rest := by
          cases pattern with
          | nil => cases hhead
          | cons c rest => exact ⟨rest, by simpa using hhead⟩
        rw [parts_doubleStar]
        exact words_anything_append r ((words_star pattern s).2 ih)
      · rw [parts_cons anything (fun h => hhead h.2), part_star]
        exact .starred (fun c hc => except_iff.mpr (hr c hc)) ih
    | question hc _ ih =>
      rw [parts_cons anything (fun h => absurd h.1 (by decide))]
      exact .once (except_iff.mpr hc) ih
    | @literal pattern s c hstar hq _ ih =>
      have hpart : part c = ⟨only c, false⟩ := by
        unfold part
        rw [if_neg hstar, if_neg hq]
      rw [parts_cons anything (fun h => hstar h.1), hpart]
      exact .once (by simp [only]) ih
  · intro h
    induction pattern using parts.induct generalizing value with
    | case1 =>
      cases h
      exact .nil
    | case2 c =>
      refine glob_of_part h fun hs => ?_
      cases hs
      exact .nil
    | case3 c d rest hboth ih =>
      obtain ⟨rfl, rfl⟩ := hboth
      rw [parts_doubleStar] at h
      obtain _ | _ | ⟨_, h⟩ := h
      exact .doubleStar _ (ih h)
    | case4 c d rest hboth ih =>
      rw [parts, if_neg hboth] at h
      exact glob_of_part h ih

/-! ### Line terminators -/

theorem parts_covers {value : JsString} {deep deep' : CodeUnit → Bool}
    (h : ∀ c ∈ value, deep c = true → deep' c = true) (pattern : JsString) :
    List.Forall₂ (Covers value) (parts deep pattern) (parts deep' pattern) := by
  have hsame : ∀ t : Term CodeUnit, Covers value t t := fun t => ⟨rfl, fun _ _ hc => hc⟩
  induction pattern using pieces.induct with
  | case1 => exact .nil
  | case2 c => exact .cons (hsame _) .nil
  | case3 c d rest hboth ih =>
    rw [parts, parts, if_pos hboth, if_pos hboth]
    exact .cons ⟨rfl, h⟩ ih
  | case4 c d rest hboth ih =>
    rw [parts, parts, if_neg hboth, if_neg hboth]
    exact .cons (hsame _) ih

/-- **A compiled glob** matches nothing that the glob does not, and all that it does in a text of one
line. -/
theorem globMatches_iff_glob {pattern value : JsString}
    (hline : ∀ c ∈ value, isLineTerminator c = false) :
    globMatches pattern value = true ↔ Glob pattern value := by
  have hdot : ∀ c ∈ value, anything c = true → dot c = true := fun c hc _ => by
    rw [dot, hline c hc]
    rfl
  rw [globMatches_iff, glob_iff]
  exact ⟨fun h => h.cover (parts_covers (fun _ _ _ => rfl) pattern),
    fun h => h.cover (parts_covers hdot pattern)⟩

theorem globMatches_iff_glob_stars : Glob ("a***".toList.map unit) [unit 'a'] :=
  (globMatches_iff_glob fun _ hc => List.mem_singleton.mp hc ▸ rfl).mp (by decide)

end Declaragent.Permission
