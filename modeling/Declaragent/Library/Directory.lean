import Declaragent.Library.JsValue
import Declaragent.Library.Utf8

/-!
# Library — directories

A tree of files, and the calls of a file system that read and change it.  `none` is an error of the
file system.

* `lookup_remove_of_ne`: a removal leaves the other entries alone.
* `fileAt_congr`: the files below a name depend on its entry only.
* `entriesAt_of_changeAt`, `entriesAt_of_mkdirAll`: what is then in the directory at the path.
* `SameTree`: the same files and directories; `SameTree.absent`: nothing is gone.
-/

namespace Directory
open JsonText

/-- What a name stands for; a directory lists its entries as `readdir` does. -/
inductive TreeNode where
  | file (bytes : Utf8.Bytes)
  | dir (entries : List (String × TreeNode))

/-- The entries of a directory. -/
abbrev Tree := List (String × TreeNode)

def TreeNode.isFile : TreeNode → Bool
  | .file _ => true
  | .dir _ => false

def existsIn (tree : Tree) (name : String) : Bool := (tree.lookup name).isSome

def isDir (tree : Tree) (name : String) : Bool := (tree.lookup name).any (!·.isFile)

/-- All but the entry of a name. -/
def remove {V : Type} (name : String) (entries : List (String × V)) : List (String × V) :=
  entries.filter fun entry => entry.1 ≠ name

/-- `mkdirSync(path, { recursive: true })`. -/
def mkdirAll : List String → Tree → Option Tree
  | [], tree => some tree
  | name :: path, tree =>
    match tree.lookup name with
    | none => (mkdirAll path []).map fun entries => put name (.dir entries) tree
    | some (.dir entries) =>
      (mkdirAll path entries).map fun entries => put name (.dir entries) tree
    | some (.file _) => none

/-- The entries of the directory at a path. -/
def entriesAt : List String → Tree → Option Tree
  | [], tree => some tree
  | name :: path, tree =>
    match tree.lookup name with
    | some (.dir entries) => entriesAt path entries
    | _ => none

/-- A change to the directory at a path. -/
def changeAt (change : Tree → Option Tree) : List String → Tree → Option Tree
  | [], tree => change tree
  | name :: path, tree =>
    match tree.lookup name with
    | some (.dir entries) =>
      (changeAt change path entries).map fun entries => put name (.dir entries) tree
    | _ => none

/-- `rename` puts a file over a file, and a directory over an empty one. -/
def renameOnto (node : TreeNode) (name : String) (tree : Tree) : Option Tree :=
  match node, tree.lookup name with
  | _, none | .file _, some (.file _) | .dir _, some (.dir []) => some (put name node tree)
  | _, some _ => none

/-- Rename an entry of the root into the directory at a path. -/
def moveDown (path : List String) (name : String) (tree : Tree) : Option Tree := do
  let node ← tree.lookup name
  changeAt (renameOnto node name) path (remove name tree)

/-- Rename an entry of the directory at a path into the root. -/
def moveUp (path : List String) (name : String) (tree : Tree) : Option Tree := do
  let entries ← entriesAt path tree
  let node ← entries.lookup name
  let tree ← changeAt (fun entries => some (remove name entries)) path tree
  renameOnto node name tree

def writeFile (name text : String) (tree : Tree) : Option Tree :=
  if isDir tree name then none else some (put name (.file (Utf8.encode text.toList)) tree)

def textOf (bytes : Utf8.Bytes) : String := String.ofList (Utf8.decode bytes)

/-- `rmSync(path, { force: true })`, which removes no directory. -/
def removeFile (name : String) (tree : Tree) : Option Tree :=
  if isDir tree name then none else some (remove name tree)

/-- The file at a path. -/
def fileAt : List String → Tree → Option Utf8.Bytes
  | [], _ => none
  | name :: path, tree =>
    match tree.lookup name with
    | some (.file bytes) => if path = [] then some bytes else none
    | some (.dir entries) => fileAt path entries
    | none => none

/-- The root is there, and is no file. -/
example (change : Tree → Option Tree) (tree : Tree) : mkdirAll [] tree = some tree ∧
    entriesAt [] tree = some tree ∧ changeAt change [] tree = change tree ∧
    fileAt [] tree = none := by
  rw [mkdirAll, entriesAt, changeAt, fileAt]
  exact ⟨rfl, rfl, rfl, rfl⟩

/-! ### Entries -/

@[simp] theorem lookup_remove_self {V : Type} (name : String) (entries : List (String × V)) :
    (remove name entries).lookup name = none := by
  rw [List.lookup_eq_none_iff]
  intro p hp
  have hne := of_decide_eq_true (List.mem_filter.mp hp).2
  simpa using Ne.symm hne

theorem lookup_remove_of_ne {V : Type} {name other : String} (h : other ≠ name)
    (entries : List (String × V)) : (remove name entries).lookup other = entries.lookup other := by
  induction entries with
  | nil => rfl
  | cons entry entries ih =>
    obtain ⟨key, node⟩ := entry
    unfold remove at ih ⊢
    by_cases hkey : key = name
    · subst hkey
      rw [List.filter_cons_of_neg (by simp), ih, List.lookup_cons, beq_eq_false_iff_ne.mpr h]
    · rw [List.filter_cons_of_pos (by simpa using hkey), List.lookup_cons, List.lookup_cons, ih]

theorem notMem_remove {V : Type} (name : String) (ps : List (String × V)) :
    name ∉ (remove name ps).map Prod.fst :=
  notMem_of_lookup_eq_none (lookup_remove_self name ps)

theorem remove_of_notMem {V : Type} {name : String} {ps : List (String × V)}
    (h : name ∉ ps.map Prod.fst) : remove name ps = ps :=
  List.filter_eq_self.mpr fun _ hp => decide_eq_true fun he => h (he ▸ List.mem_map_of_mem hp)

/-! ### Files -/

section
variable {name : String} {tree s s' : Tree}

theorem textOf_encode (text : String) : textOf (Utf8.encode text.toList) = text := by
  rw [textOf, Utf8.decode_encode, String.ofList_toList]

theorem put_of_writeFile {text : String} (h : writeFile name text s = some s') :
    s' = put name (.file (Utf8.encode text.toList)) s := by
  unfold writeFile at h
  split at h
  · cases h
  · cases h
    rfl

theorem remove_of_removeFile (h : removeFile name s = some s') :
    s' = remove name s := by
  unfold removeFile at h
  split at h
  · cases h
  · cases h
    rfl

theorem removeFile_of_file {bytes : Utf8.Bytes} (h : tree.lookup name = some (.file bytes)) :
    removeFile name tree = some (remove name tree) := by
  simp [removeFile, isDir, h, TreeNode.isFile]

theorem lookup_eq_none_of_existsIn (h : existsIn tree name = false) : tree.lookup name = none :=
  Option.not_isSome_iff_eq_none.mp (Bool.eq_false_iff.mp h)

theorem isDir_eq_false_iff :
    isDir tree name = false ↔ ∀ entries, tree.lookup name ≠ some (.dir entries) := by
  rw [isDir]
  cases tree.lookup name with
  | none => simp
  | some node => cases node <;> simp [TreeNode.isFile]

theorem isDir_congr (h : s.lookup name = s'.lookup name) : isDir s name = isDir s' name := by
  rw [isDir, isDir, h]

theorem fileAt_congr (h : s.lookup name = s'.lookup name) (path : List String) :
    fileAt (name :: path) s = fileAt (name :: path) s' := by
  rw [fileAt, fileAt, h]

theorem entriesAt_congr (h : s.lookup name = s'.lookup name) (path : List String) :
    entriesAt (name :: path) s = entriesAt (name :: path) s' := by
  rw [entriesAt, entriesAt, h]

theorem fileAt_eq_none (h : tree.lookup name = none) (path : List String) :
    fileAt (name :: path) tree = none := by
  rw [fileAt, h]

end

/-! ### Below a path -/

section
variable {path : List String} {change : Tree → Option Tree} {s s' entries : Tree}

/-- A change to a directory that there is succeeds if it succeeds on the entries. -/
theorem changeAt_isSome (h : entriesAt path s = some entries) :
    (changeAt change path s).isSome = (change entries).isSome := by
  induction path generalizing s with
  | nil =>
    cases h
    rfl
  | cons name path ih =>
    rw [entriesAt] at h
    rw [changeAt]
    cases found : s.lookup name with
    | none =>
      rw [found] at h
      cases h
    | some node =>
      rw [found] at h
      cases node with
      | file bytes => cases h
      | dir below => rw [Option.isSome_map, ih h]

/-- What a change leaves in the directory. -/
theorem entriesAt_of_changeAt (h : changeAt change path s = some s') :
    ∃ entries entries', entriesAt path s = some entries ∧ change entries = some entries' ∧
      entriesAt path s' = some entries' := by
  induction path generalizing s s' with
  | nil => exact ⟨s, s', rfl, h, rfl⟩
  | cons name path ih =>
    rw [changeAt] at h
    rw [entriesAt]
    cases found : s.lookup name with
    | none =>
      rw [found] at h
      cases h
    | some node =>
      rw [found] at h
      cases node with
      | file bytes => cases h
      | dir below =>
        obtain ⟨below', changed, rfl⟩ := Option.map_eq_some_iff.mp h
        obtain ⟨entries, entries', before, eq, after⟩ := ih changed
        refine ⟨entries, entries', before, eq, ?_⟩
        rw [entriesAt, lookup_put_self]
        exact after

theorem lookup_of_changeAt {name other : String} (h : changeAt change (name :: path) s = some s')
    (ne : other ≠ name) : s'.lookup other = s.lookup other := by
  rw [changeAt] at h
  split at h
  · obtain ⟨below, -, rfl⟩ := Option.map_eq_some_iff.mp h
    exact lookup_put_of_ne ne _ _
  · cases h

/-- A directory that there is need not be made. -/
theorem mkdirAll_of_entriesAt (h : entriesAt path s = some entries) : mkdirAll path s = some s := by
  induction path generalizing s with
  | nil => rfl
  | cons name path ih =>
    rw [entriesAt] at h
    rw [mkdirAll]
    cases found : s.lookup name with
    | none =>
      rw [found] at h
      cases h
    | some node =>
      rw [found] at h
      cases node with
      | file bytes => cases h
      | dir below =>
        dsimp only
        rw [ih h, Option.map_some, put_of_lookup found]

theorem entriesAt_nil_tree (path : List String) : (entriesAt path []).getD [] = [] := by
  cases path with
  | nil => rfl
  | cons name path => rfl

/-- A directory that is made has the entries that were there. -/
theorem entriesAt_of_mkdirAll (h : mkdirAll path s = some s') :
    entriesAt path s' = some ((entriesAt path s).getD []) := by
  induction path generalizing s s' with
  | nil =>
    cases h
    rfl
  | cons name path ih =>
    rw [mkdirAll] at h
    cases found : s.lookup name with
    | none =>
      rw [found] at h
      obtain ⟨below, made, rfl⟩ := Option.map_eq_some_iff.mp h
      rw [entriesAt, lookup_put_self, entriesAt, found]
      exact (ih made).trans (congrArg some (entriesAt_nil_tree path))
    | some node =>
      rw [found] at h
      cases node with
      | file bytes => cases h
      | dir before =>
        obtain ⟨below, made, rfl⟩ := Option.map_eq_some_iff.mp h
        rw [entriesAt, lookup_put_self, entriesAt, found]
        exact ih made

theorem lookup_of_mkdirAll {name other : String} (h : mkdirAll (name :: path) s = some s')
    (ne : other ≠ name) : s'.lookup other = s.lookup other := by
  rw [mkdirAll] at h
  split at h
  · obtain ⟨below, -, rfl⟩ := Option.map_eq_some_iff.mp h
    exact lookup_put_of_ne ne _ _
  · obtain ⟨below, -, rfl⟩ := Option.map_eq_some_iff.mp h
    exact lookup_put_of_ne ne _ _
  · cases h

/-- Whether `rename` puts the node over what stands there. -/
def fits (node : TreeNode) : Option TreeNode → Bool
  | none => true
  | some (.file _) => node.isFile
  | some (.dir entries) => !node.isFile && entries.isEmpty

theorem renameOnto_eq (node : TreeNode) (name : String) (tree : Tree) :
    renameOnto node name tree =
      if fits node (tree.lookup name) = true then some (put name node tree) else none := by
  unfold renameOnto
  cases tree.lookup name with
  | none => cases node <;> rfl
  | some there =>
    cases there with
    | file bytes => cases node <;> rfl
    | dir entries => cases entries <;> cases node <;> rfl

end

/-! ### Names -/

/-- Every directory lists a name once. -/
def Distinct (tree : Tree) : Prop :=
  ∀ path entries, entriesAt path tree = some entries → (entries.map Prod.fst).Nodup

theorem Distinct.of_entries {tree : Tree} (names : (tree.map Prod.fst).Nodup)
    (below : ∀ name entries, tree.lookup name = some (.dir entries) → Distinct entries) :
    Distinct tree := by
  intro path entries h
  cases path with
  | nil =>
    obtain rfl := Option.some.inj h
    exact names
  | cons name path =>
    rw [entriesAt] at h
    split at h
    · rename_i inside found
      exact below name inside found path entries h
    · cases h

/-! ### The same files and directories -/

section
variable {path : List String} {s s' : Tree}

/-- Every path is the same file, the same directory or nothing in both, in whichever order a
directory lists its entries. -/
def SameTree (s s' : Tree) : Prop :=
  ∀ path, fileAt path s = fileAt path s' ∧
    (entriesAt path s).isSome = (entriesAt path s').isSome

/-- There is nothing at the path. -/
def Absent (path : List String) (tree : Tree) : Prop :=
  fileAt path tree = none ∧ entriesAt path tree = none

theorem SameTree.refl (tree : Tree) : SameTree tree tree := fun _ => ⟨rfl, rfl⟩

theorem SameTree.absent (h : SameTree s s') (absent : Absent path s') : Absent path s := by
  obtain ⟨file, dir⟩ := h path
  refine ⟨file.trans absent.1, ?_⟩
  rw [absent.2] at dir
  exact Option.isSome_eq_false_iff.mp dir |> Option.isNone_iff_eq_none.mp

theorem absent_top_iff {name : String} : Absent [name] s ↔ s.lookup name = none := by
  rw [Absent, fileAt, entriesAt]
  cases s.lookup name with
  | none => simp
  | some node => cases node <;> simp [entriesAt]

theorem absent_below {name : String}
    (h : ∀ entries, entriesAt path s = some entries → entries.lookup name = none) :
    Absent (path ++ [name]) s := by
  induction path generalizing s with
  | nil => exact absent_top_iff.mpr (h s rfl)
  | cons first path ih =>
    rw [List.cons_append, Absent, fileAt, entriesAt]
    rw [entriesAt] at h
    cases found : s.lookup first with
    | none => exact ⟨rfl, rfl⟩
    | some node =>
      rw [found] at h
      cases node with
      | file bytes => exact ⟨if_neg (by simp), rfl⟩
      | dir below => exact ih h

theorem not_absent_below {name : String} {entries : Tree} (h : entriesAt path s = some entries)
    (there : entries.lookup name ≠ none) : ¬Absent (path ++ [name]) s := by
  induction path generalizing s with
  | nil =>
    cases h
    rwa [List.nil_append, absent_top_iff]
  | cons first path ih =>
    rw [entriesAt] at h
    rw [List.cons_append, Absent, fileAt, entriesAt]
    cases found : s.lookup first with
    | none =>
      rw [found] at h
      cases h
    | some node =>
      rw [found] at h
      cases node with
      | file bytes => cases h
      | dir below => exact ih h

end

end Directory
