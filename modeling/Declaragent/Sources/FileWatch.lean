import Declaragent.Library.RegExpSource

/-!
# Sources — the globs of a file watch

A glob is compiled to a regular expression by a loop that looks ahead at a second star and at a
slash behind it, and what is watched is the directory above its first magic character.  Texts are
in code units.

`Denotes` is the documented meaning of a glob.

* `reads_parts`: the terms that a glob without an opening bracket compiles to.  Two stars become
  `.*`, which takes no line terminator, and takes part of a segment as well.
* `comes`: an opening bracket opens a class, and what the glob compiles to, if to anything, has
  words that are shorter than all that it denotes.
* `exact_iff`: which globs match what they say, below the directory that is watched for them.
-/

namespace Declaragent.Sources.FileWatch
open RegExp

/-! ### The source -/

/-- The characters that are written with a backslash. -/
def escaped : List CodeUnit := ['.', '+', '^', '$', '(', ')', '{', '}', '|', '\\'].map unit

/-- What is written for one character of the glob. -/
def piece (c : CodeUnit) : List CodeUnit :=
  if c = unit '*' then ['[', '^', '/', ']', '*'].map unit
  else if c = unit '?' then ['[', '^', '/', ']'].map unit
  else if c ∈ escaped then [unit '\\', c]
  else [c]

/-- What the loop writes; the number is how many characters it was already moved past. -/
def pieces : Nat → List CodeUnit → List (List CodeUnit)
  | _, [] => []
  | skip + 1, _ :: glob => pieces skip glob
  | 0, c :: glob =>
    if c = unit '*' ∧ glob[0]? = some (unit '*') then
      ['.', '*'].map unit :: pieces (if glob[1]? = some (unit '/') then 2 else 1) glob
    else piece c :: pieces 0 glob

/-- `none` where the constructor of regular expressions throws. -/
def globToRegExp (glob : List CodeUnit) : Option (List (Node CodeUnit)) :=
  readSource (unit '^' :: ((pieces 0 glob).flatten ++ [unit '$']))

def isMagic (c : CodeUnit) : Bool := c ∈ ['*', '?', '[', ']', '{', '}', '!'].map unit

def lastIndexOf (c : CodeUnit) : List CodeUnit → Option Nat
  | [] => none
  | d :: s =>
    match lastIndexOf c s with
    | some i => some (i + 1)
    | none => if d = c then some 0 else none

/-- The directory that is watched for a glob. -/
def extractWatchRoot (glob : List CodeUnit) : List CodeUnit :=
  match glob.findIdx? isMagic with
  | none => glob
  | some idx =>
    match lastIndexOf (unit '/') (glob.take idx) with
    | none => [unit '.']
    | some lastSlash => (glob.take idx).take lastSlash

/-! ### What a glob says -/

/-- Segments with their slashes. -/
def segmentsText (segments : List (List CodeUnit)) : List CodeUnit :=
  segments.flatMap (· ++ [unit '/'])

/-- The documented meaning: `**` is any sequence of segments, which are whole where a slash follows
it; `*` is any run without a slash, `?` one character but a slash, and the rest is itself. -/
inductive Denotes : List CodeUnit → List CodeUnit → Prop where
  | nil : Denotes [] []
  | segments {glob s : List CodeUnit} (segments : List (List CodeUnit))
      (whole : ∀ segment ∈ segments, unit '/' ∉ segment) (h : Denotes glob s) :
      Denotes (unit '*' :: unit '*' :: unit '/' :: glob) (segmentsText segments ++ s)
  | anything {glob s : List CodeUnit} (noSlash : glob[0]? ≠ some (unit '/')) (r : List CodeUnit)
      (h : Denotes glob s) : Denotes (unit '*' :: unit '*' :: glob) (r ++ s)
  | star {glob r s : List CodeUnit} (single : glob[0]? ≠ some (unit '*')) (run : unit '/' ∉ r)
      (h : Denotes glob s) : Denotes (unit '*' :: glob) (r ++ s)
  | question {glob s : List CodeUnit} {c : CodeUnit} (other : c ≠ unit '/') (h : Denotes glob s) :
      Denotes (unit '?' :: glob) (c :: s)
  | literal {glob s : List CodeUnit} {c : CodeUnit} (notStar : c ≠ unit '*')
      (notQuestion : c ≠ unit '?') (h : Denotes glob s) : Denotes (c :: glob) (c :: s)

/-- The path is the directory or lies below it; the empty directory is the current one, as `.` is.
Names are compared as they stand. -/
def Below (root path : List CodeUnit) : Prop :=
  if root = [] ∨ root = [unit '.'] then path[0]? ≠ some (unit '/')
  else path = root ∨ root ++ [unit '/'] <+: path

/-- The glob matches what it says, below the directory that is watched for it. -/
def Exact (glob : List CodeUnit) : Prop :=
  (∃ re, globToRegExp glob = some re ∧ ∀ path, test re path = true ↔ Denotes glob path) ∧
    ∀ path, Denotes glob path → Below (extractWatchRoot glob) path

variable {glob path s : List CodeUnit} {c : CodeUnit}

/-! ### The loop -/

/-- A glob begins as the loop looks at it: with two stars and a slash, with two stars, or with one
character by itself. -/
theorem glob_induction {motive : List CodeUnit → Prop} (nil : motive [])
    (segments : ∀ glob, motive glob → motive (unit '*' :: unit '*' :: unit '/' :: glob))
    (anything : ∀ glob, glob[0]? ≠ some (unit '/') → motive glob →
      motive (unit '*' :: unit '*' :: glob))
    (single : ∀ c glob, ¬(c = unit '*' ∧ glob[0]? = some (unit '*')) → motive glob →
      motive (c :: glob)) (glob : List CodeUnit) : motive glob := by
  induction len : glob.length using Nat.strongRecOn generalizing glob with
  | ind n ih =>
    subst len
    cases glob with
    | nil => exact nil
    | cons c glob =>
      by_cases both : c = unit '*' ∧ glob[0]? = some (unit '*')
      · obtain ⟨rfl, second⟩ := both
        obtain ⟨glob, rfl⟩ : ∃ rest, glob = unit '*' :: rest := by
          cases glob with
          | nil => cases second
          | cons d rest => exact ⟨rest, by rw [Option.some.inj second]⟩
        by_cases slash : glob[0]? = some (unit '/')
        · obtain ⟨glob, rfl⟩ : ∃ rest, glob = unit '/' :: rest := by
            cases glob with
            | nil => cases slash
            | cons d rest => exact ⟨rest, by rw [Option.some.inj slash]⟩
          exact segments glob (ih _ (by simp only [List.length_cons]; omega) glob rfl)
        · exact anything glob slash (ih _ (by simp only [List.length_cons]; omega) glob rfl)
      · exact single c glob both (ih _ (by simp) glob rfl)

/-- One character of the glob as a term. -/
def part (c : CodeUnit) : Term CodeUnit :=
  if c = unit '*' then ⟨classOf true [(unit '/', unit '/')], true⟩
  else if c = unit '?' then ⟨classOf true [(unit '/', unit '/')], false⟩
  else ⟨only c, false⟩

/-- The glob as terms, as the loop takes it apart. -/
def parts : Nat → List CodeUnit → List (Term CodeUnit)
  | _, [] => []
  | skip + 1, _ :: glob => parts skip glob
  | 0, c :: glob =>
    if c = unit '*' ∧ glob[0]? = some (unit '*') then
      ⟨dot, true⟩ :: parts (if glob[1]? = some (unit '/') then 2 else 1) glob
    else part c :: parts 0 glob

theorem loop_segments (glob : List CodeUnit) :
    pieces 0 (unit '*' :: unit '*' :: unit '/' :: glob) = ['.', '*'].map unit :: pieces 0 glob ∧
      parts 0 (unit '*' :: unit '*' :: unit '/' :: glob) = ⟨dot, true⟩ :: parts 0 glob :=
  ⟨rfl, rfl⟩

theorem loop_anything (noSlash : glob[0]? ≠ some (unit '/')) :
    pieces 0 (unit '*' :: unit '*' :: glob) = ['.', '*'].map unit :: pieces 0 glob ∧
      parts 0 (unit '*' :: unit '*' :: glob) = ⟨dot, true⟩ :: parts 0 glob := by
  have both : unit '*' = unit '*' ∧ (unit '*' :: glob)[0]? = some (unit '*') := ⟨rfl, rfl⟩
  have one : (unit '*' :: glob)[1]? ≠ some (unit '/') := noSlash
  rw [pieces, parts, if_pos both, if_pos both, if_neg one]
  exact ⟨rfl, rfl⟩

theorem loop_single (single : ¬(c = unit '*' ∧ glob[0]? = some (unit '*'))) :
    pieces 0 (c :: glob) = piece c :: pieces 0 glob ∧
      parts 0 (c :: glob) = part c :: parts 0 glob := by
  rw [pieces, parts, if_neg single, if_neg single]
  exact ⟨rfl, rfl⟩

theorem reads_piece (plain : c ≠ unit '[') : Reads (piece c) (part c) := by
  have slash : Reads (['[', '^', '/', ']'].map unit) ⟨classOf true [(unit '/', unit '/')], false⟩ :=
    reads_except (by decide) (by decide)
  unfold piece part
  by_cases star : c = unit '*'
  · rw [if_pos star, if_pos star]
    exact slash.starred
  · rw [if_neg star, if_neg star]
    by_cases question : c = unit '?'
    · rw [if_pos question, if_pos question]
      exact slash
    · rw [if_neg question, if_neg question]
      split
      · rename_i mem
        have all : escaped ⊆ syntaxCharacters := by decide
        exact reads_escaped (all mem)
      · rename_i notMem
        have all : syntaxCharacters ⊆
            escaped ++ [unit '*', unit '?', unit '[', unit ']'] := by decide
        have special : c ∈ syntaxCharacters → c ∈ escaped ∨ c = unit '*' ∨ c = unit '?' ∨
            c = unit '[' ∨ c = unit ']' := fun mem => by simpa using all mem
        exact reads_plain (by tauto)

/-- Without an opening bracket, the expression is that of the terms of the glob. -/
theorem reads_parts (plain : unit '[' ∉ glob) :
    List.Forall₂ Reads (pieces 0 glob) (parts 0 glob) := by
  induction glob using glob_induction with
  | nil => exact .nil
  | segments glob ih =>
    rw [(loop_segments glob).1, (loop_segments glob).2]
    exact .cons reads_dot.starred
      (ih fun mem => plain (by simp [mem]))
  | anything glob noSlash ih =>
    rw [(loop_anything noSlash).1, (loop_anything noSlash).2]
    exact .cons reads_dot.starred (ih fun mem => plain (by simp [mem]))
  | single c glob alone ih =>
    rw [List.mem_cons, not_or] at plain
    rw [(loop_single alone).1, (loop_single alone).2]
    exact .cons (reads_piece (Ne.symm plain.1)) (ih plain.2)

/-! ### The words of a glob -/

theorem accepts_part_star : (part (unit '*')).accepts c = true ↔ c ≠ unit '/' := classOf_except

theorem part_other (star : c ≠ unit '*') (question : c ≠ unit '?') : part c = ⟨only c, false⟩ := by
  rw [part, if_neg star, if_neg question]

/-- Without two stars side by side, a glob denotes the words of its terms. -/
theorem denotes_iff (noDeep : ¬[unit '*', unit '*'] <:+: glob) :
    Denotes glob path ↔ Words (parts 0 glob) path := by
  induction glob generalizing path with
  | nil =>
    constructor
    · rintro ⟨⟩
      exact .nil
    · rintro ⟨⟩
      exact .nil
  | cons c glob ih =>
    have alone : ¬(c = unit '*' ∧ glob[0]? = some (unit '*')) := by
      rintro ⟨rfl, second⟩
      cases glob with
      | nil => cases second
      | cons d glob =>
        obtain rfl := Option.some.inj second
        exact noDeep ⟨[], glob, rfl⟩
    have ih {path : List CodeUnit} : Denotes glob path ↔ Words (parts 0 glob) path :=
      ih fun within => noDeep (within.trans (List.suffix_cons c glob).isInfix)
    rw [(loop_single alone).2]
    constructor
    · intro denotes
      cases denotes with
      | segments => exact absurd ⟨rfl, rfl⟩ alone
      | anything => exact absurd ⟨rfl, rfl⟩ alone
      | star _ run rest =>
        exact .starred (fun c mem => accepts_part_star.mpr fun eq => run (eq ▸ mem))
          (ih.mp rest)
      | question other rest => exact .once (accepts_part_star.mpr other) (ih.mp rest)
      | literal star question rest =>
        rw [part_other star question]
        exact .once (by simp [only]) (ih.mp rest)
    · intro words
      by_cases star : c = unit '*'
      · subst star
        obtain _ | _ | ⟨run, rest⟩ := words
        exact .star (fun eq => alone ⟨rfl, eq⟩)
          (fun mem => accepts_part_star.mp (run _ mem) rfl) (ih.mpr rest)
      · by_cases question : c = unit '?'
        · subst question
          obtain _ | ⟨accepted, rest⟩ := words
          exact .question (accepts_part_star.mp accepted) (ih.mpr rest)
        · rw [part_other star question] at words
          obtain _ | ⟨accepted, rest⟩ := words
          obtain rfl : _ = c := by simpa [only] using accepted
          exact .literal star question (ih.mpr rest)

/-- What a glob denotes is at least as long as its terms that are not starred. -/
theorem solid_le_length (denotes : Denotes glob path) : solid (parts 0 glob) ≤ path.length := by
  induction denotes with
  | nil => exact Nat.le_refl 0
  | @segments glob s segments _ _ ih =>
    rw [(loop_segments glob).2, List.length_append]
    exact Nat.le_add_left_of_le ih
  | @anything glob s noSlash r _ ih =>
    rw [(loop_anything noSlash).2, List.length_append]
    exact Nat.le_add_left_of_le ih
  | @star glob r s single _ _ ih =>
    rw [(loop_single fun both => single both.2).2, List.length_append]
    exact Nat.le_add_left_of_le ih
  | @question glob s c _ _ ih =>
    rw [(loop_single fun both => absurd both.1 (by decide)).2, solid_cons]
    exact Nat.succ_le_succ ih
  | @literal glob s c star question _ ih =>
    rw [(loop_single fun both => star both.1).2, part_other star question, solid_cons]
    exact Nat.succ_le_succ ih

/-- A line feed and a slash, any number of times. -/
def breaks (n : Nat) : List CodeUnit := (List.replicate n [10, unit '/']).flatten

theorem breaks_segments (n : Nat) : breaks n = segmentsText (List.replicate n [10]) := by
  rw [breaks, segmentsText, List.flatMap_def, List.map_replicate]
  rfl

/-- Every glob denotes some path, and with two stars side by side one of any number of lines. -/
theorem exists_denoted (glob : List CodeUnit) (n : Nat) :
    ∃ path, Denotes glob path ∧
      ([unit '*', unit '*'] <:+: glob → (breaks n).Sublist path) := by
  induction glob using glob_induction with
  | nil => exact ⟨[], .nil, fun within => absurd within (by decide)⟩
  | segments glob ih =>
    obtain ⟨s, denotes, -⟩ := ih
    refine ⟨_, .segments (List.replicate n [10]) ?_ denotes, fun _ => ?_⟩
    · intro segment mem
      rw [(List.mem_replicate.mp mem).2]
      decide
    · rw [← breaks_segments]
      exact List.sublist_append_left _ _
  | anything glob noSlash ih =>
    obtain ⟨s, denotes, -⟩ := ih
    exact ⟨_, .anything noSlash (breaks n) denotes, fun _ => List.sublist_append_left _ _⟩
  | single c glob alone ih =>
    obtain ⟨s, denotes, within⟩ := ih
    have within : [unit '*', unit '*'] <:+: c :: glob → (breaks n).Sublist s := by
      intro infixed
      rcases List.infix_cons_iff.mp infixed with starts | later
      · obtain ⟨rest, eq⟩ := starts
        cases eq
        exact absurd ⟨rfl, rfl⟩ alone
      · exact within later
    by_cases star : c = unit '*'
    · subst star
      exact ⟨[] ++ s, .star (fun eq => alone ⟨rfl, eq⟩) (by simp) denotes, within⟩
    · by_cases question : c = unit '?'
      · subst question
        exact ⟨10 :: s, .question (by decide) denotes, fun h => (within h).cons _⟩
      · exact ⟨c :: s, .literal star question denotes, fun h => (within h).cons _⟩

theorem parts_apart (t : Term CodeUnit) (mem : t ∈ parts 0 glob) (starred : t.starred = true)
    (line : t.accepts 10 = true) : t.accepts (unit '/') = false := by
  have dots : ∀ t : Term CodeUnit, t = ⟨dot, true⟩ → t.accepts 10 = true →
      t.accepts (unit '/') = false := by
    rintro _ rfl line
    cases line
  induction glob using glob_induction with
  | nil => cases mem
  | segments glob ih =>
    rw [(loop_segments glob).2] at mem
    rcases List.mem_cons.mp mem with eq | mem
    · exact dots t eq line
    · exact ih mem
  | anything glob noSlash ih =>
    rw [(loop_anything noSlash).2] at mem
    rcases List.mem_cons.mp mem with eq | mem
    · exact dots t eq line
    · exact ih mem
  | single c glob alone ih =>
    rw [(loop_single alone).2] at mem
    rcases List.mem_cons.mp mem with rfl | mem
    · by_cases star : c = unit '*'
      · rw [star]
        decide
      · by_cases question : c = unit '?'
        · rw [question] at starred
          cases starred
        · rw [part_other star question] at starred
          cases starred
    · exact ih mem

/-! ### Classes -/

/-- What is written for a character either ends the class it stands in, as a term that is starred
where the character's own is, or goes on with it. -/
theorem read_piece_inClass (fresh negated : Bool) (atoms : List (CodeUnit × Bool))
    (done : List (Node CodeUnit)) (c : CodeUnit) :
    (∃ atoms', ∀ s, readOn (.inClass fresh negated atoms) done (piece c ++ s) =
      (ranges atoms').bind fun rs =>
        readOn .plain (.term ⟨classOf negated rs, (part c).starred⟩ :: done) s) ∨
    ∃ atoms', ∀ s, readOn (.inClass fresh negated atoms) done (piece c ++ s) =
      readOn (.inClass false negated atoms') done s := by
  by_cases star : c = unit '*'
  · subst star
    exact .inl ⟨atoms ++ [(unit '[', false)] ++ [(unit '^', false)] ++ [(unit '/', false)],
      fun s => rfl⟩
  · by_cases question : c = unit '?'
    · subst question
      exact .inl ⟨atoms ++ [(unit '[', false)] ++ [(unit '^', false)] ++ [(unit '/', false)],
        fun s => rfl⟩
    · by_cases mem : c ∈ escaped
      · have all : escaped ⊆ syntaxCharacters := by decide
        refine .inr ⟨atoms ++ [(c, true)], fun s => ?_⟩
        rw [piece, if_neg star, if_neg question, if_pos mem]
        change readOn (.escapedInClass negated atoms) done (c :: s) = _
        rw [readOn, if_pos (all mem)]
      · have text : piece c = [c] := by rw [piece, if_neg star, if_neg question, if_neg mem]
        by_cases close : c = unit ']'
        · subst close
          exact .inl ⟨atoms, fun s => rfl⟩
        · refine .inr ⟨atoms ++ [(c, false)], fun s => ?_⟩
          have caret : c ≠ unit '^' := by
            rintro rfl
            exact mem (by decide)
          have backslash : c ≠ unit '\\' := by
            rintro rfl
            exact mem (by decide)
          rw [text, List.singleton_append, readOn, if_neg (fun h => caret h.1), if_neg close,
            if_neg backslash]

/-- The rest of the source reads, if at all, as terms up to its end; but for `k`, as many of them
are not starred as in the glob. -/
def Comes (r : Reader) (done : List (Node CodeUnit)) (glob : List CodeUnit) (k : Nat) : Prop :=
  ∀ nodes, readOn r done ((pieces 0 glob).flatten ++ [unit '$']) = some nodes →
    ∃ terms, nodes = done.reverse ++ (terms.map .term ++ [.ends]) ∧
      solid terms + k ≤ solid (parts 0 glob)

section
variable {r r' : Reader} {done : List (Node CodeUnit)} {text glob' : List CodeUnit}
  {t t' : Term CodeUnit} {k k' : Nat}

/-- A term was read, for one of the glob. -/
theorem Comes.term (h : Comes .plain (.term t :: done) glob k) (same : t.starred = t'.starred)
    (looked : pieces 0 glob' = text :: pieces 0 glob ∧ parts 0 glob' = t' :: parts 0 glob)
    (read : ∀ s nodes, readOn r done (text ++ s) = some nodes →
      readOn .plain (.term t :: done) s = some nodes) : Comes r done glob' k := by
  intro nodes eq
  rw [looked.1, List.flatten_cons, List.append_assoc] at eq
  obtain ⟨terms, rfl, bound⟩ := h nodes (read _ nodes eq)
  refine ⟨t :: terms, by simp, ?_⟩
  rw [looked.2, solid_cons, solid_cons, same]
  omega

/-- No term was read, for one of the glob. -/
theorem Comes.pass (h : Comes r' done glob k) (cost : k' ≤ k + if t'.starred = true then 0 else 1)
    (looked : pieces 0 glob' = text :: pieces 0 glob ∧ parts 0 glob' = t' :: parts 0 glob)
    (read : ∀ s, readOn r done (text ++ s) = readOn r' done s) : Comes r done glob' k' := by
  intro nodes eq
  rw [looked.1, List.flatten_cons, List.append_assoc, read] at eq
  obtain ⟨terms, rfl, bound⟩ := h nodes eq
  refine ⟨terms, rfl, ?_⟩
  rw [looked.2, solid_cons]
  omega

end

/-- In a class, which whatever is written next may end. -/
theorem comes_inClass (plain : ∀ done, Comes .plain done glob 0)
    (inClass : ∀ fresh negated atoms done, Comes (.inClass fresh negated atoms) done glob 0)
    (alone : ¬(c = unit '*' ∧ glob[0]? = some (unit '*'))) (fresh negated : Bool)
    (atoms : List (CodeUnit × Bool)) (done : List (Node CodeUnit)) :
    Comes (.inClass fresh negated atoms) done (c :: glob) 0 := by
  rcases read_piece_inClass fresh negated atoms done c with ⟨atoms', ends⟩ | ⟨atoms', goesOn⟩
  · intro nodes eq
    rw [(loop_single alone).1, List.flatten_cons, List.append_assoc, ends,
      Option.bind_eq_some_iff] at eq
    obtain ⟨rs, -, eq⟩ := eq
    obtain ⟨terms, rfl, bound⟩ := plain _ nodes eq
    refine ⟨⟨classOf negated rs, (part c).starred⟩ :: terms, by simp, ?_⟩
    rw [(loop_single alone).2, solid_cons, solid_cons]
    exact Nat.add_le_add_right bound _
  · exact (inClass false negated atoms' done).pass (Nat.zero_le _) (loop_single alone) goesOn

theorem comes (glob : List CodeUnit) :
    (∀ fresh negated atoms done, Comes (.inClass fresh negated atoms) done glob 0) ∧
      (∀ done, Comes .plain done glob 0) ∧
      (unit '[' ∈ glob → ∀ done, Comes .plain done glob 1) := by
  have ne : unit '[' ≠ unit '*' ∧ unit '[' ≠ unit '/' := by decide
  induction glob using glob_induction with
  | nil =>
    refine ⟨?_, ?_, fun mem => absurd mem (by simp)⟩
    · intro fresh negated atoms done nodes eq
      cases fresh <;> cases eq
    · intro done nodes eq
      obtain rfl := Option.some.inj eq
      exact ⟨[], by simp, Nat.le_refl 0⟩
  | segments glob ih =>
    obtain ⟨inClass, plain, fewer⟩ := ih
    refine ⟨fun fresh negated atoms done => ?_, fun done => ?_, fun mem done => ?_⟩
    · exact (inClass false negated (atoms ++ [(unit '.', false)] ++ [(unit '*', false)])
        done).pass (Nat.zero_le _) (loop_segments glob) fun s => rfl
    · exact (plain _).term rfl (loop_segments glob) fun s nodes => id
    · exact (fewer (by simpa [ne] using mem) _).term rfl (loop_segments glob) fun s nodes => id
  | anything glob noSlash ih =>
    obtain ⟨inClass, plain, fewer⟩ := ih
    refine ⟨fun fresh negated atoms done => ?_, fun done => ?_, fun mem done => ?_⟩
    · exact (inClass false negated (atoms ++ [(unit '.', false)] ++ [(unit '*', false)])
        done).pass (Nat.zero_le _) (loop_anything noSlash) fun s => rfl
    · exact (plain _).term rfl (loop_anything noSlash) fun s nodes => id
    · exact (fewer (by simpa [ne] using mem) _).term rfl (loop_anything noSlash) fun s nodes => id
  | single c glob alone ih =>
    obtain ⟨inClass, plain, fewer⟩ := ih
    refine ⟨comes_inClass plain inClass alone, ?_, ?_⟩
    · intro done
      by_cases opens : c = unit '['
      · subst opens
        exact (inClass true false [] done).pass (Nat.zero_le _) (loop_single alone) fun s => rfl
      · exact (plain _).term rfl (loop_single alone) fun s nodes read => by
          rwa [reads_piece opens] at read
    · intro mem done
      by_cases opens : c = unit '['
      · subst opens
        refine (inClass true false [] done).pass ?_ (loop_single alone) fun s => rfl
        exact Nat.le_refl 1
      · have mem := (List.mem_cons.mp mem).resolve_left (Ne.symm opens)
        exact (fewer mem _).term rfl (loop_single alone) fun s nodes read => by
          rwa [reads_piece opens] at read

/-! ### What compiles to what it says -/

/-- The glob compiles to an expression that finds what the glob denotes. -/
def Compiles (glob : List CodeUnit) : Prop :=
  ∃ re, globToRegExp glob = some re ∧ ∀ path, test re path = true ↔ Denotes glob path

theorem compiles_of_single (noDeep : ¬[unit '*', unit '*'] <:+: glob) (plain : unit '[' ∉ glob) :
    Compiles glob := by
  refine ⟨_, readSource_anchored (reads_parts plain), fun path => ?_⟩
  rw [test_anchored, denotes_iff noDeep]

/-- The expression has a word that is too short. -/
theorem not_compiles_of_bracket (bracket : unit '[' ∈ glob) : ¬Compiles glob := by
  rintro ⟨re, compiled, same⟩
  obtain ⟨terms, rfl, fewer⟩ := (comes glob).2.2 bracket [.begins] re compiled
  have same (path : List CodeUnit) : Words terms path ↔ Denotes glob path := by
    rw [← same, ← test_anchored]
    rfl
  obtain ⟨path, denotes, -⟩ := exists_denoted glob 0
  obtain ⟨short, words, length⟩ := exists_words ((same path).mpr denotes).inhabited
  have := solid_le_length ((same short).mp words)
  omega

/-- The glob denotes a path of more lines than the expression has terms. -/
theorem not_compiles_of_deep (deep : [unit '*', unit '*'] <:+: glob) (plain : unit '[' ∉ glob) :
    ¬Compiles glob := by
  rintro ⟨re, compiled, same⟩
  have read := readSource_anchored (reads_parts plain)
  obtain rfl := Option.some.inj (compiled.symm.trans read)
  obtain ⟨path, denotes, lines⟩ := exists_denoted glob ((parts 0 glob).length + 1)
  have words := (test_anchored _ _).mp ((same path).mpr denotes)
  have := length_of_pairs parts_apart words _ (lines deep)
  omega

theorem compiles_iff :
    Compiles glob ↔ ¬[unit '*', unit '*'] <:+: glob ∧ unit '[' ∉ glob := by
  constructor
  · intro compiles
    have plain : unit '[' ∉ glob := fun bracket => not_compiles_of_bracket bracket compiles
    exact ⟨fun deep => not_compiles_of_deep deep plain compiles, plain⟩
  · rintro ⟨noDeep, plain⟩
    exact compiles_of_single noDeep plain

/-! ### The directory that is watched -/

theorem lastIndexOf_eq_none (c : CodeUnit) (s : List CodeUnit) :
    lastIndexOf c s = none ↔ c ∉ s := by
  induction s with
  | nil => simp [lastIndexOf]
  | cons d s ih =>
    rw [lastIndexOf, List.mem_cons, not_or]
    cases found : lastIndexOf c s with
    | some i => simp [← ih, found]
    | none => simp [← ih, found, eq_comm]

theorem lastIndexOf_eq_some {s : List CodeUnit} {i : Nat} (h : lastIndexOf c s = some i) :
    ∃ name, s = s.take i ++ c :: name ∧ c ∉ name := by
  induction s generalizing i with
  | nil => cases h
  | cons d s ih =>
    rw [lastIndexOf] at h
    cases found : lastIndexOf c s with
    | some j =>
      rw [found] at h
      obtain rfl := Option.some.inj h
      obtain ⟨name, split, last⟩ := ih found
      exact ⟨name, congrArg (d :: ·) split, last⟩
    | none =>
      rw [found] at h
      dsimp only at h
      split at h
      · rename_i eq
        obtain rfl := Option.some.inj h
        exact ⟨s, by rw [eq]; rfl, (lastIndexOf_eq_none c s).mp found⟩
      · cases h

theorem ne_of_not_magic (h : isMagic c = false) : c ≠ unit '*' ∧ c ≠ unit '?' := by
  constructor
  · rintro rfl
    exact absurd h (by decide)
  · rintro rfl
    exact absurd h (by decide)

/-- What stands before the first magic character is as it stands. -/
theorem denotes_literal {pre rest : List CodeUnit} (plain : ∀ c ∈ pre, isMagic c = false)
    (denotes : Denotes (pre ++ rest) path) : ∃ s, path = pre ++ s ∧ Denotes rest s := by
  induction pre generalizing path with
  | nil => exact ⟨path, rfl, denotes⟩
  | cons c pre ih =>
    rw [List.forall_mem_cons] at plain
    obtain ⟨star, question⟩ := ne_of_not_magic plain.1
    rw [List.cons_append] at denotes
    generalize whole : pre ++ rest = glob at denotes
    cases denotes with
    | segments => exact absurd rfl star
    | anything => exact absurd rfl star
    | star => exact absurd rfl star
    | question => exact absurd rfl question
    | literal _ _ denotes =>
      subst whole
      obtain ⟨s, rfl, remains⟩ := ih plain.2 denotes
      exact ⟨s, rfl, remains⟩

theorem exists_magic (glob : List CodeUnit) :
    (∀ c ∈ glob, isMagic c = false) ∨ ∃ pre m rest, glob = pre ++ m :: rest ∧
      (∀ c ∈ pre, isMagic c = false) ∧ isMagic m = true := by
  induction glob with
  | nil => exact .inl (by simp)
  | cons c glob ih =>
    cases magic : isMagic c with
    | true => exact .inr ⟨[], c, glob, rfl, by simp, magic⟩
    | false =>
      rcases ih with plain | ⟨pre, m, rest, rfl, plain, magic'⟩
      · exact .inl (List.forall_mem_cons.mpr ⟨magic, plain⟩)
      · exact .inr ⟨c :: pre, m, rest, rfl, List.forall_mem_cons.mpr ⟨magic, plain⟩, magic'⟩

theorem extractWatchRoot_plain (plain : ∀ c ∈ glob, isMagic c = false) :
    extractWatchRoot glob = glob := by
  rw [extractWatchRoot, List.findIdx?_eq_none_iff.mpr plain]

theorem extractWatchRoot_magic {pre rest : List CodeUnit} {m : CodeUnit}
    (plain : ∀ c ∈ pre, isMagic c = false) (magic : isMagic m = true) :
    extractWatchRoot (pre ++ m :: rest) =
      (lastIndexOf (unit '/') pre).elim [unit '.'] pre.take := by
  have idx : (pre ++ m :: rest).findIdx? isMagic = some pre.length := by
    rw [List.findIdx?_append, List.findIdx?_eq_none_iff.mpr plain, List.findIdx?_cons, if_pos magic]
    simp
  rw [extractWatchRoot, idx]
  dsimp only
  rw [List.take_left]
  cases lastIndexOf (unit '/') pre with
  | none => rfl
  | some i => rfl

theorem not_below_dot {root : List CodeUnit} (cwd : root = [] ∨ root = [unit '.']) :
    ¬Below root (unit '/' :: s) := by
  rw [Below, if_pos cwd]
  exact fun h => h rfl

/-- The glob begins with a star and a slash, so that what the star takes may be nothing. -/
def StarSlash (glob : List CodeUnit) : Prop := [unit '*', unit '/'] <+: glob

/-- The glob is absolute, and its first magic character is in its first name. -/
def MagicAtTop (glob : List CodeUnit) : Prop :=
  ∃ name m rest, glob = unit '/' :: name ++ m :: rest ∧
    (∀ c ∈ name, c ≠ unit '/' ∧ isMagic c = false) ∧ isMagic m = true

/-- A magic character at the front takes no slash, but where a star takes nothing. -/
theorem head_of_magic {m : CodeUnit} {rest : List CodeUnit} (magic : isMagic m = true)
    (noDeep : ¬[unit '*', unit '*'] <:+: m :: rest) (noSlash : ¬StarSlash (m :: rest))
    (denotes : Denotes (m :: rest) path) : path[0]? ≠ some (unit '/') := by
  cases denotes with
  | segments => exact absurd ⟨[], _, rfl⟩ noDeep
  | anything => exact absurd ⟨[], _, rfl⟩ noDeep
  | @star _ r s single run denotes =>
    cases r with
    | cons c r =>
      intro eq
      obtain rfl := Option.some.inj eq
      exact run List.mem_cons_self
    | nil =>
      cases denotes with
      | nil => exact fun h => by cases h
      | segments => exact absurd rfl single
      | anything => exact absurd rfl single
      | star => exact absurd rfl single
      | question other =>
        intro eq
        exact other (Option.some.inj eq)
      | literal =>
        intro eq
        obtain rfl := Option.some.inj eq
        exact noSlash ⟨_, rfl⟩
  | question other =>
    intro eq
    exact other (Option.some.inj eq)
  | literal =>
    intro eq
    obtain rfl := Option.some.inj eq
    exact absurd magic (by decide)

theorem below_iff (noDeep : ¬[unit '*', unit '*'] <:+: glob) :
    (∀ path, Denotes glob path → Below (extractWatchRoot glob) path) ↔
      ¬StarSlash glob ∧ ¬MagicAtTop glob := by
  constructor
  · intro below
    constructor
    · rintro ⟨rest, rfl⟩
      obtain ⟨s, denotes, -⟩ := exists_denoted rest 0
      have slash : Denotes (unit '/' :: rest) (unit '/' :: s) :=
        .literal (by decide) (by decide) denotes
      exact not_below_dot (.inr rfl) (below ([] ++ unit '/' :: s)
        (.star (fun eq => absurd (Option.some.inj eq) (by decide)) (by simp) slash))
    · rintro ⟨name, m, rest, rfl, plain, magic⟩
      obtain ⟨path, denotes, -⟩ := exists_denoted (unit '/' :: name ++ m :: rest) 0
      have plain' : ∀ c ∈ unit '/' :: name, isMagic c = false :=
        List.forall_mem_cons.mpr ⟨by decide, fun c mem => (plain c mem).2⟩
      have top : lastIndexOf (unit '/') (unit '/' :: name) = some 0 := by
        rw [lastIndexOf, (lastIndexOf_eq_none _ _).mpr fun mem => (plain _ mem).1 rfl]
        rfl
      obtain ⟨s, rfl, -⟩ := denotes_literal plain' denotes
      have := below _ denotes
      rw [extractWatchRoot_magic plain' magic, top] at this
      exact not_below_dot (.inl rfl) this
  · rintro ⟨noSlash, notAtTop⟩ path denotes
    rcases exists_magic glob with plain | ⟨pre, m, rest, rfl, plain, magic⟩
    · rw [← List.append_nil glob] at denotes
      obtain ⟨s, rfl, remains⟩ := denotes_literal plain denotes
      cases remains
      rw [extractWatchRoot_plain plain, List.append_nil, Below]
      split
      · rename_i cwd
        rcases cwd with rfl | rfl <;> decide
      · exact .inl rfl
    · obtain ⟨s, rfl, remains⟩ := denotes_literal plain denotes
      rw [extractWatchRoot_magic plain magic]
      cases found : lastIndexOf (unit '/') pre with
      | none =>
        rw [Option.elim_none, Below, if_pos (.inr rfl)]
        cases pre with
        | nil => exact head_of_magic magic noDeep noSlash remains
        | cons c pre =>
          intro eq
          obtain rfl := Option.some.inj eq
          exact (lastIndexOf_eq_none _ _).mp found List.mem_cons_self
      | some i =>
        obtain ⟨name, split, last⟩ := lastIndexOf_eq_some found
        rw [Option.elim_some]
        generalize pre.take i = root at split
        subst split
        rw [Below]
        split
        · rename_i cwd
          rcases cwd with rfl | rfl
          · have plain : ∀ c ∈ name, isMagic c = false :=
              fun c mem => plain c (List.mem_cons_of_mem _ mem)
            have first : ∀ c ∈ name, c ≠ unit '/' ∧ isMagic c = false :=
              fun c mem => ⟨fun eq => last (eq ▸ mem), plain c mem⟩
            exact absurd ⟨name, m, rest, rfl, first, magic⟩ notAtTop
          · exact fun eq => absurd (Option.some.inj eq) (by decide)
        · exact .inr ⟨name ++ s, by simp⟩

/-- **The claim about a glob.**  It matches what it says, below the directory that is watched for
it, exactly when no two stars stand side by side in it, it has no opening bracket, a star at its
front has no slash behind it, and, if it is absolute, its first name has no magic character. -/
theorem exact_iff (glob : List CodeUnit) :
    Exact glob ↔ ¬[unit '*', unit '*'] <:+: glob ∧ unit '[' ∉ glob ∧ ¬StarSlash glob ∧
      ¬MagicAtTop glob := by
  constructor
  · rintro ⟨compiles, below⟩
    obtain ⟨noDeep, plain⟩ := compiles_iff.mp compiles
    exact ⟨noDeep, plain, (below_iff noDeep).mp below⟩
  · rintro ⟨noDeep, plain, root⟩
    exact ⟨compiles_of_single noDeep plain, (below_iff noDeep).mpr root⟩

theorem denotes_segments (denotes : Denotes (unit '*' :: unit '*' :: unit '/' :: glob) path) :
    ∃ segments s, path = segmentsText segments ++ s ∧ Denotes glob s := by
  generalize whole : unit '*' :: unit '*' :: unit '/' :: glob = deep at denotes
  cases denotes with
  | nil => cases whole
  | segments segments _ denotes =>
    cases whole
    exact ⟨segments, _, rfl, denotes⟩
  | anything noSlash =>
    cases whole
    exact absurd rfl noSlash
  | star single =>
    cases whole
    exact absurd rfl single
  | question =>
    have := (List.cons.inj whole).1
    exact absurd this (by decide)
  | literal notStar => exact absurd (List.cons.inj whole).1.symm notStar

/-- Any number of whole segments may stand between `a/` and `b`, but `x` is none. -/
theorem segment_split :
    (globToRegExp ("a/**/b".toList.map unit)).any (test · ("a/xb".toList.map unit)) = true ∧
      ¬Denotes ("a/**/b".toList.map unit) ("a/xb".toList.map unit) ∧
      ¬Exact ("a/**/b".toList.map unit) := by
  have accepted : (globToRegExp ("a/**/b".toList.map unit)).any
      (test · ("a/xb".toList.map unit)) = true := by decide
  have other : ¬Denotes ("a/**/b".toList.map unit) ("a/xb".toList.map unit) := by
    intro denotes
    have denotes : Denotes ([unit 'a', unit '/'] ++
        unit '*' :: unit '*' :: unit '/' :: ([unit 'b'] ++ [])) _ := denotes
    have leading : ∀ c ∈ [unit 'a', unit '/'], isMagic c = false :=
      List.forall_mem_cons.mpr ⟨by decide, List.forall_mem_singleton.mpr (by decide)⟩
    obtain ⟨s, whole, deep⟩ := denotes_literal leading denotes
    obtain ⟨segments, _, rfl, last⟩ := denotes_segments deep
    have plain : ∀ c ∈ [unit 'b'], isMagic c = false := List.forall_mem_singleton.mpr (by decide)
    obtain ⟨_, rfl, ⟨⟩⟩ := denotes_literal plain last
    have whole : [unit 'a', unit '/'] ++ ([unit 'x'] ++ [unit 'b']) =
      [unit 'a', unit '/'] ++ (segmentsText segments ++ [unit 'b']) := whole
    have between := (List.append_cancel_right (List.append_cancel_left whole)).symm
    cases segments with
    | nil => cases between
    | cons segment segments =>
      have slash : unit '/' ∈ [unit 'x'] := by
        rw [← between]
        simp [segmentsText]
      exact absurd slash (by decide)
  refine ⟨accepted, other, ?_⟩
  rintro ⟨⟨re, compiled, same⟩, -⟩
  rw [compiled] at accepted
  exact other ((same _).mp accepted)

/-! ### What is reported -/

end Declaragent.Sources.FileWatch
