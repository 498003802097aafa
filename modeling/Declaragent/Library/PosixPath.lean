import Declaragent.Library.Lines
import Declaragent.Library.RegExp
import Mathlib.Data.List.TakeWhile

/-!
# Library — paths of a POSIX system

A path is a text of code units.  `names` are the directories that it leads through, with the
segments `.` and `..` resolved; `resolve` writes them down.

* `names_write`: a path that is written so leads where it says.
* `spells_iff`: which texts begin with a path that is written so, segment by segment.
-/

namespace PosixPath
open RegExp (CodeUnit unit)

/-- A path, and one of its segments. -/
abbrev Path := List CodeUnit

def sep : CodeUnit := unit '/'

def isAbsolute (path : Path) : Bool := path.head? = some sep

/-- The segments that are not names: the empty one, `.` and `..`. -/
def special : List Path := [[], [unit '.'], [unit '.', unit '.']]

/-- Where one more segment leads. -/
def enter (dir : List Path) (segment : Path) : List Path :=
  if segment = [unit '.', unit '.'] then dir.dropLast
  else if segment ∈ special then dir
  else dir ++ [segment]

/-- The names that a path leads through, from the root on. -/
def names (cwd path : Path) : List Path :=
  ((if isAbsolute path then path else cwd ++ sep :: path).splitOn sep).foldl enter []

def write (dir : List Path) : Path := sep :: [sep].intercalate dir

/-- `path.resolve` of one argument, where `cwd` is the working directory. -/
def resolve (cwd path : Path) : Path := write (names cwd path)

/-! ### Names -/

/-- Segments that are names. -/
def Plain (dir : List Path) : Prop := ∀ name ∈ dir, name ∉ special ∧ sep ∉ name

theorem enter_plain {dir : List Path} {name : Path} (h : name ∉ special) :
    enter dir name = dir ++ [name] := by
  have hdots : name ≠ [unit '.', unit '.'] := by
    rintro rfl
    exact h (by simp [special])
  rw [enter, if_neg hdots, if_neg h]

theorem foldl_enter_plain {segments : List Path} (h : Plain segments) (dir : List Path) :
    segments.foldl enter dir = dir ++ segments := by
  induction segments generalizing dir with
  | nil => rw [List.foldl_nil, List.append_nil]
  | cons name segments ih =>
    obtain ⟨hname, hrest⟩ := List.forall_mem_cons.mp h
    rw [List.foldl_cons, enter_plain hname.1, ih hrest, List.append_assoc]
    rfl

theorem Plain.enter {dir : List Path} (h : Plain dir) {segment : Path} (hsep : sep ∉ segment) :
    Plain (enter dir segment) := by
  unfold PosixPath.enter
  split
  · exact fun name hname => h name (List.dropLast_subset dir hname)
  · split
    · exact h
    · rename_i hspecial
      intro name hname
      rcases List.mem_append.mp hname with hname | hname
      · exact h name hname
      · obtain rfl := List.mem_singleton.mp hname
        exact ⟨hspecial, hsep⟩

theorem Plain.foldl {segments dir : List Path} (h : Plain dir)
    (hsegments : ∀ segment ∈ segments, sep ∉ segment) :
    Plain (segments.foldl PosixPath.enter dir) := by
  induction segments generalizing dir with
  | nil => exact h
  | cons segment segments ih =>
    obtain ⟨hsegment, hrest⟩ := List.forall_mem_cons.mp hsegments
    exact ih (h.enter hsegment) hrest

theorem names_plain (cwd path : Path) : Plain (names cwd path) :=
  Plain.foldl (by simp [Plain]) fun _ => Lines.notMem_of_mem_splitOn

/-! ### Paths that are written by name -/

theorem segments_intercalate {dir : List Path} (h : Plain dir) (hne : dir ≠ []) :
    ([sep].intercalate dir).splitOn sep = dir :=
  List.splitOn_intercalate sep (fun name hname => (h name hname).2) hne

theorem names_write (cwd : Path) {dir : List Path} (h : Plain dir) :
    names cwd (write dir) = dir := by
  have habsolute : isAbsolute (write dir) = true := by simp [isAbsolute, write]
  have hsplit : (write dir).splitOn sep = [] :: ([sep].intercalate dir).splitOn sep :=
    List.splitOn_append_cons_self_of_not_mem List.not_mem_nil _
  have hempty (dir : List Path) : PosixPath.enter dir [] = dir := by simp [PosixPath.enter, special]
  rw [names, if_pos habsolute, hsplit, List.foldl_cons, hempty]
  by_cases hne : dir = []
  · subst hne
    simp [hempty]
  · rw [segments_intercalate h hne, foldl_enter_plain h, List.nil_append]

/-- The names that a text begins with, after its first separator. -/
def leading (path : Path) : List Path := (path.tail.splitOn sep).takeWhile (· ∉ special)

theorem leading_plain (path : Path) : Plain (leading path) := by
  intro name hname
  unfold leading at hname
  have hspecial := List.mem_takeWhile_imp hname
  exact ⟨of_decide_eq_true hspecial,
    Lines.notMem_of_mem_splitOn ((List.takeWhile_prefix _).subset hname)⟩

theorem takeWhile_plain {dir : List Path} (h : Plain dir) :
    dir.takeWhile (· ∉ special) = dir :=
  List.takeWhile_eq_self_iff.mpr fun name hname => decide_eq_true (h name hname).1

theorem leading_write {dir : List Path} (h : Plain dir) : leading (write dir) = dir := by
  rw [leading, write, List.tail_cons]
  by_cases hne : dir = []
  · subst hne
    simp [special]
  · rw [segments_intercalate h hne, takeWhile_plain h]

/-- Only the root ends with a separator. -/
theorem sep_suffix_write {dir : List Path} (h : Plain dir) : [sep] <:+ write dir ↔ dir = [] := by
  constructor
  · rintro ⟨before, hbefore⟩
    by_contra hne
    have hempty : [] ∈ dir := by
      rw [← segments_intercalate h hne]
      cases before with
      | nil =>
        have hrest : [] = [sep].intercalate dir := (List.cons.inj hbefore).2
        rw [← hrest, List.splitOn_nil]
        exact List.mem_singleton_self _
      | cons c before =>
        have hrest : before ++ [sep] = [sep].intercalate dir := (List.cons.inj hbefore).2
        rw [← hrest, List.splitOn_append_cons_self, List.splitOn_nil]
        exact List.mem_append_right _ (List.mem_singleton_self _)
    exact (h [] hempty).1 (by simp [special])
  · rintro rfl
    exact List.suffix_refl _

/-- A text that is a path written by name, or goes on after it with a separator. -/
theorem spells_iff {dir : List Path} (h : Plain dir) (hne : dir ≠ []) (text : Path) :
    text = [sep].intercalate dir ∨ [sep].intercalate dir ++ [sep] <+: text ↔
      dir <+: text.splitOn sep := by
  constructor
  · rintro (rfl | ⟨more, rfl⟩)
    · have hsegments := segments_intercalate h hne
      exact ⟨[], (List.append_nil dir).trans hsegments.symm⟩
    · rw [List.append_assoc, List.singleton_append, List.splitOn_append_cons_self,
        segments_intercalate h hne]
      exact List.prefix_append _ _
  · rintro ⟨later, hlater⟩
    have htext : [sep].intercalate (text.splitOn sep) = text := List.intercalate_splitOn sep
    rw [← htext, ← hlater]
    cases later with
    | nil => exact .inl (by rw [List.append_nil])
    | cons segment later =>
      right
      refine ⟨[sep].intercalate (segment :: later), ?_⟩
      rw [Lines.intercalate_append hne (List.cons_ne_nil _ _), List.append_assoc,
        List.singleton_append]

/-- Names that the segments begin with are among the leading ones. -/
theorem prefix_leading_iff {dir : List Path} (h : Plain dir) (segments : List Path) :
    dir <+: segments ↔ dir <+: segments.takeWhile (· ∉ special) := by
  constructor
  · rintro ⟨later, rfl⟩
    rw [List.takeWhile_append_of_pos fun name hname => decide_eq_true (h name hname).1]
    exact List.prefix_append _ _
  · exact fun hdir => hdir.trans (List.takeWhile_prefix _)

end PosixPath
