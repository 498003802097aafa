import Declaragent.Library.PosixPath

/-!
# Builder — what is in scope

A path that a tool of the builder writes to is compared with the root of the scope.  A path that is
relative is resolved first.  An absolute one is compared as it is given, by what it begins with, and
its segments `.` and `..` are the file system's to resolve later.

* `isWithinScope_iff`: the test asks for the names that such a path begins with.
* `isWithinScope_right_iff`: the paths that the test decides as the file system would, whatever the
  scope is.
-/

namespace Declaragent.Builder.Scope
open PosixPath
open RegExp (CodeUnit unit)

/-- The path that is compared. -/
def absolute (cwd pathArg : Path) : Path :=
  if isAbsolute pathArg then pathArg else resolve cwd pathArg

def isWithinScope (cwd pathArg scopeRoot : Path) : Bool :=
  let abs := absolute cwd pathArg
  let rootAbs := resolve cwd scopeRoot
  if abs = rootAbs then true
  else
    let rootWithSep := if [sep].isSuffixOf rootAbs then rootAbs else rootAbs ++ [sep]
    rootWithSep.isPrefixOf abs

/-- The path, with its segments resolved, is the root or lies below it. -/
def Inside (cwd path root : Path) : Prop := names cwd root <+: names cwd path

/-! ### The test -/

theorem absolute_isAbsolute (cwd pathArg : Path) : isAbsolute (absolute cwd pathArg) = true := by
  unfold absolute
  split
  · assumption
  · simp [resolve, write, isAbsolute]

theorem absolute_eq (cwd pathArg : Path) :
    absolute cwd pathArg = sep :: (absolute cwd pathArg).tail :=
  (List.head?_eq_some_iff.mp (of_decide_eq_true (absolute_isAbsolute cwd pathArg))).elim
    fun tail htail => by rw [htail, List.tail_cons]

/-- The test compares names, the leading ones of the path. -/
theorem isWithinScope_iff (cwd pathArg scopeRoot : Path) :
    isWithinScope cwd pathArg scopeRoot = true ↔
      names cwd scopeRoot <+: leading (absolute cwd pathArg) := by
  have hplain := names_plain cwd scopeRoot
  have htext := absolute_eq cwd pathArg
  rw [leading, ← prefix_leading_iff hplain]
  generalize (absolute cwd pathArg).tail = text at htext ⊢
  unfold isWithinScope
  rw [htext, resolve]
  by_cases hne : names cwd scopeRoot = []
  · have hsuffix : [sep].isSuffixOf (write (names cwd scopeRoot)) = true :=
      List.isSuffixOf_iff_suffix.mpr ((sep_suffix_write hplain).mpr hne)
    simp only [hsuffix, hne]
    simp [write]
  · have hsuffix : [sep].isSuffixOf (write (names cwd scopeRoot)) ≠ true :=
      fun h => hne ((sep_suffix_write hplain).mp (List.isSuffixOf_iff_suffix.mp h))
    rw [← spells_iff hplain hne text]
    simp only [hsuffix]
    simp [write]

theorem leading_absolute_of_relative {cwd pathArg : Path} (h : isAbsolute pathArg = false) :
    leading (absolute cwd pathArg) = names cwd pathArg := by
  rw [absolute, if_neg (by simp [h]), resolve, leading_write (names_plain cwd pathArg)]

/-- **Which paths are judged right.**  A path is compared with every scope as the file system
resolves it just if it is relative, or begins with all the names that it leads through. -/
theorem isWithinScope_right_iff (cwd path : Path) :
    (∀ root, isWithinScope cwd path root = true ↔ Inside cwd path root) ↔
      isAbsolute path = false ∨ leading path = names cwd path := by
  have htest (root : Path) : (isWithinScope cwd path root = true ↔ Inside cwd path root) ↔
      (names cwd root <+: leading (absolute cwd path) ↔ names cwd root <+: names cwd path) := by
    rw [isWithinScope_iff, Inside]
  simp only [htest]
  cases habsolute : isAbsolute path with
  | false => simp [leading_absolute_of_relative habsolute]
  | true =>
    have hsame : absolute cwd path = path := if_pos habsolute
    rw [hsame]
    constructor
    · intro h
      right
      have hpath : names cwd path <+: leading path := (h path).mpr (List.prefix_refl _)
      have hleading : leading path <+: names cwd path := by
        have hroot := h (write (leading path))
        rw [names_write cwd (leading_plain path)] at hroot
        exact hroot.mp (List.prefix_refl _)
      exact hleading.eq_of_length_le hpath.length_le
    · rintro (hrelative | hleading) root
      · cases hrelative
      · rw [hleading]

/-- A path that leaves the scope again. -/
theorem parent_in_scope :
    ¬ ∀ cwd path root : Path,
      isWithinScope cwd path root = true ↔ Inside cwd path root := by
  intro h
  have hpath := h ("/work".toList.map unit) ("/a/../etc".toList.map unit) ("/a".toList.map unit)
  revert hpath
  unfold Inside
  decide

end Declaragent.Builder.Scope
