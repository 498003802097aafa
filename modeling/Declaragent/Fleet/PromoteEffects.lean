import Declaragent.Fleet.Promote
import Declaragent.Library.Fallible

/-!
# Fleet — what a failed promotion or demotion leaves

Both commands check some things first and then change the directory call by call; a call that
throws ends the command with an error, and what was changed before stays.

* `promoteSteps_result`, `demoteSteps_result`: the calls, one after the other, are the commands.
* `promote_ends_iff`, `demote_ends_iff`: when all the calls succeed.
* `untouched_iff`: when a command that fails leaves the directory as it was.
-/

namespace Declaragent.Fleet
open Directory Fallible JsonText

/-- A directory tree, in which every directory lists a name once. -/
structure DirectoryTree where
  tree : Tree
  distinct : Distinct tree

inductive Conversion where
  /-- `fleet promote --apply`. -/
  | promote (id : Option String)
  /-- `fleet demote`. -/
  | demote (id : Option String)

/-- A call, or what is done between two. -/
abbrev PromoteStep := Tree → Except PromoteFailure Tree

/-! ### The calls -/

def makeAgentDir (agentId : String) : PromoteStep :=
  fun tree => orThrow (mkdirAll ["agents", agentId] tree)

/-- The two calls for a file that moves. -/
def moveSteps (agentId name : String) : List PromoteStep :=
  [makeAgentDir agentId, fun tree => orThrow (moveDown ["agents", agentId] name tree)]

namespace PromoteHost
variable (H : PromoteHost)

def writePackage (plan : PromotePlan) : PromoteStep := fun tree => do
  let pkg ← H.promotedPackage plan
  orThrow (writeFile "package.json" (packageText pkg) tree)

/-- What `applyPromotePlan` does. -/
def promoteSteps (plan : PromotePlan) : List PromoteStep :=
  makeAgentDir plan.agentId :: plan.moves.flatMap (moveSteps plan.agentId) ++
    [rewriteMoved plan.agentId "agent.yaml" (rewriteAgentYamlName plan.agentId),
      rewriteMoved plan.agentId "capabilities.yaml"
        (fun yamlText => .ok (rewriteCapabilitiesAgent plan.agentId yamlText)),
      H.writePackage plan,
      fun tree => orThrow (writeFile "fleet.yaml" (renderFleetOfOneManifest plan.agentId) tree),
      fun tree => orThrow
        (writeFile "PROMOTED.md" (renderPromotedNote plan.agentId (H.path []) H.today) tree)]

/-- What `applyDemote` checks before it moves anything: the id of the agent, and its entries. -/
def checkDemote (id : Option String) (tree : Tree) : Except PromoteFailure (String × Tree) :=
  if !existsIn tree "fleet.yaml" then .error (.scaffold
    ("fleetDemote: " ++ H.path ["fleet.yaml"] ++ " does not exist — nothing to demote"))
  else do
    let onlyId ← H.soleAgentId (← readText "fleet.yaml" tree)
    let expectedId := id.getD onlyId
    if expectedId ≠ onlyId then .error (.scaffold
      ("fleetDemote: requested id \"" ++ expectedId ++ "\" does not match the sole fleet member \""
        ++ onlyId ++ "\""))
    else if !isAgentId expectedId then .error (.scaffold
      ("fleetDemote: agent id \"" ++ expectedId ++ "\" must be a URL-safe identifier"))
    else
      match entriesAt ["agents", expectedId] tree with
      | none => .error (.scaffold ("fleetDemote: expected " ++ H.path ["agents", expectedId] ++
          " to be a directory but it is missing"))
      | some entries => .ok (expectedId, entries)

/-- What `applyDemote` does then. -/
def demoteSteps (agentId : String) (names : List String) : List PromoteStep :=
  names.map (fun name tree => H.moveToRoot agentId tree name) ++
    [fun tree => .ok (remove "agents" tree), fun tree => orThrow (removeFile "fleet.yaml" tree),
      fun tree => orThrow (removeFile "PROMOTED.md" tree), H.stripWorkspaces]

/-- A command that fails exits with an error. -/
def run : Conversion → Tree → Ended PromoteFailure Tree
  | .promote id, tree =>
    match H.buildPromotePlan id tree with
    | .ok plan => perform (H.promoteSteps plan) tree
    | .error failure => ⟨some failure, tree⟩
  | .demote id, tree =>
    match H.checkDemote id tree with
    | .ok (agentId, entries) => perform (H.demoteSteps agentId (entries.map Prod.fst)) tree
    | .error failure => ⟨some failure, tree⟩

end PromoteHost

/-- The command leaves the directory as it was, if it fails. -/
def Untouched (H : PromoteHost) (command : Conversion) (tree : Tree) : Prop :=
  (H.run command tree).failure ≠ none → SameTree tree (H.run command tree).state

/-! ### The calls make the commands -/

section
variable {H : PromoteHost} {plan : PromotePlan} {agentId : String} {names : List String}
  {tree : Tree}

theorem orThrow_bind {α β : Type} (x : Option α) (f : α → Option β) :
    orThrow (x >>= f) = orThrow x >>= fun a => orThrow (f a) := by
  cases x with
  | none => rfl
  | some a => rfl

theorem moveSteps_result (agentId : String) (names : List String) (tree : Tree) :
    (names.flatMap (moveSteps agentId)).foldlM (fun s step => step s) tree =
      orThrow (names.foldlM (moveToAgent agentId) tree) := by
  induction names generalizing tree with
  | nil => rfl
  | cons name names ih =>
    rw [List.flatMap_cons, List.foldlM_append, List.foldlM_cons, orThrow_bind]
    have one : (moveSteps agentId name).foldlM (fun s step => step s) tree =
        orThrow (moveToAgent agentId tree name) := by
      rw [moveToAgent, orThrow_bind]
      simp only [moveSteps, List.foldlM_cons, List.foldlM_nil, bind_pure]
      rfl
    rw [one]
    exact bind_congr fun s => ih s

theorem promoteSteps_result (H : PromoteHost) (plan : PromotePlan) (tree : Tree) :
    (perform (H.promoteSteps plan) tree).result = H.applyPromotePlan plan tree := by
  rw [perform_result, PromoteHost.promoteSteps, List.foldlM_append, List.foldlM_cons,
    PromoteHost.applyPromotePlan]
  simp only [bind_assoc, moveSteps_result, PromoteHost.writePackage, List.foldlM_cons,
    List.foldlM_nil, bind_pure]
  rfl

theorem demoteSteps_result (H : PromoteHost) (agentId : String) (names : List String)
    (tree : Tree) : (perform (H.demoteSteps agentId names) tree).result =
      H.moveBack agentId names tree := by
  rw [perform_result, PromoteHost.demoteSteps, List.foldlM_append, List.foldlM_map,
    PromoteHost.moveBack]
  simp only [List.foldlM_cons, List.foldlM_nil, bind_pure]
  rfl

end

/-! ### When a promotion ends well -/

theorem spec_orThrow {α : Type} {x : Option α} {returned : α → Prop}
    (h : ∀ a, x = some a → returned a) : Spec (x.isSome = true) returned (orThrow x) := by
  cases x with
  | none => exact Spec.error.congr (by simp)
  | some a => exact (Spec.ok (h a rfl)).congr (by simp)

/-- Some names of the tree have moved to the entries of the agent, of which there were some. -/
structure Promoting (agentId : String) (tree there : Tree) (moved : List String)
    (s entries : Tree) : Prop where
  dir : entriesAt ["agents", agentId] s = some entries
  root : ∀ name, name ≠ "agents" →
    s.lookup name = if name ∈ moved then none else tree.lookup name
  agent : ∀ name, entries.lookup name =
    if name ∈ moved then tree.lookup name else there.lookup name

/-- The files that are moved find room. -/
def AllFit (tree there : Tree) (names : List String) : Prop :=
  ∀ name ∈ names, ∀ node, tree.lookup name = some node → fits node (there.lookup name) = true

/-- The text of a file that is rewritten has what is rewritten, and the file is none else. -/
def Rewritable (rewrite : String → Except PromoteFailure String) (node : Option TreeNode) : Prop :=
  ∀ n, node = some n → ∃ bytes text, n = .file bytes ∧ rewrite (textOf bytes) = .ok text

section
variable {agentId name : String} {tree there s entries : Tree} {moved names : List String}
  {node : TreeNode}

theorem Promoting.move (h : Promoting agentId tree there moved s entries)
    (other : name ≠ "agents") (fresh : name ∉ moved) (found : tree.lookup name = some node) :
    Spec (fits node (there.lookup name) = true)
      (fun s' => ∃ entries', Promoting agentId tree there (moved ++ [name]) s' entries')
      (orThrow (moveToAgent agentId s name)) := by
  have root : s.lookup name = some node := by rw [h.root name other, if_neg fresh, found]
  have agent : entries.lookup name = there.lookup name := by rw [h.agent name, if_neg fresh]
  have kept : entriesAt ["agents", agentId] (remove name s) = some entries :=
    (entriesAt_congr (lookup_remove_of_ne (Ne.symm other) s) _).trans h.dir
  have step : moveToAgent agentId s name =
      changeAt (renameOnto node name) ["agents", agentId] (remove name s) := by
    rw [moveToAgent, mkdirAll_of_entriesAt h.dir]
    change moveDown ["agents", agentId] name s = _
    rw [moveDown, root]
    rfl
  rw [step]
  refine (spec_orThrow fun s' changed => ?_).congr ?_
  · obtain ⟨before, after, same, renamed, dir⟩ := entriesAt_of_changeAt changed
    obtain rfl := Option.some.inj (kept.symm.trans same)
    rw [renameOnto_eq] at renamed
    split at renamed
    · obtain rfl := Option.some.inj renamed
      refine ⟨_, dir, fun other' ne => ?_, fun other' => ?_⟩
      · rw [lookup_of_changeAt changed ne]
        by_cases eq : other' = name
        · rw [eq, lookup_remove_self, if_pos (by simp)]
        · rw [lookup_remove_of_ne eq, h.root other' ne]
          simp [eq]
      · by_cases eq : other' = name
        · rw [eq, lookup_put_self, if_pos (by simp), found]
        · rw [lookup_put_of_ne eq, h.agent other']
          simp [eq]
    · cases renamed
  · rw [changeAt_isSome kept, renameOnto_eq, agent]
    cases fits node (there.lookup name) <;> simp

theorem Promoting.moves (h : Promoting agentId tree there moved s entries)
    (other : "agents" ∉ names) (distinct : (moved ++ names).Nodup)
    (found : ∀ name ∈ names, ∃ node, tree.lookup name = some node) :
    Spec (AllFit tree there names)
      (fun s' => ∃ entries', Promoting agentId tree there (moved ++ names) s' entries')
      (orThrow (names.foldlM (moveToAgent agentId) s)) := by
  induction names generalizing moved s entries with
  | nil =>
    refine (Spec.ok ⟨entries, ?_⟩).congr (by simp [AllFit])
    rwa [List.append_nil]
  | cons name names ih =>
    rw [List.mem_cons, not_or] at other
    rw [List.forall_mem_cons] at found
    obtain ⟨node, node_eq⟩ := found.1
    have fresh : name ∉ moved := fun mem =>
      (List.nodup_append.mp distinct).2.2 name mem name List.mem_cons_self rfl
    rw [List.append_cons] at distinct ⊢
    rw [List.foldlM_cons, orThrow_bind]
    refine ((h.move (Ne.symm other.1) fresh node_eq).bind fun s' promoting =>
      promoting.elim fun entries' h' => ih h' other.2 distinct found.2).congr ?_
    unfold AllFit
    rw [List.forall_mem_cons]
    refine and_congr_left' ⟨fun h n eq => ?_, fun h => h node node_eq⟩
    obtain rfl := Option.some.inj (node_eq.symm.trans eq)
    exact h

/-- **One rewriting**, whatever else there is. -/
theorem rewriteMoved_ends {rewrite : String → Except PromoteFailure String}
    (dir : entriesAt ["agents", agentId] s = some entries) :
    Spec (Rewritable rewrite (entries.lookup name))
      (fun s' => ∃ entries', entriesAt ["agents", agentId] s' = some entries' ∧
        (∀ other, other ≠ "agents" → s'.lookup other = s.lookup other) ∧
        ∀ other, other ≠ name → entries'.lookup other = entries.lookup other)
      (rewriteMoved agentId name rewrite s) := by
  unfold rewriteMoved
  rw [dir, Option.bind_some]
  cases found : entries.lookup name with
  | none =>
    refine (Spec.ok ⟨entries, dir, fun _ _ => rfl, fun _ _ => rfl⟩).congr ?_
    exact iff_of_true trivial fun n eq => by cases eq
  | some node =>
    cases node with
    | dir below =>
      refine Spec.error.congr (iff_of_false not_false fun h => ?_)
      obtain ⟨bytes, text, eq, -⟩ := h _ rfl
      cases eq
    | file bytes =>
      dsimp only
      cases eq : rewrite (textOf bytes) with
      | error failure =>
        refine Spec.error.congr (iff_of_false not_false fun h => ?_)
        obtain ⟨bytes', text, same, eq'⟩ := h _ rfl
        obtain rfl := TreeNode.file.inj same
        rw [eq] at eq'
        cases eq'
      | ok text =>
        have rewritable : Rewritable rewrite (some (.file bytes)) := by
          rintro n same
          exact ⟨bytes, text, (Option.some.inj same).symm, eq⟩
        change Spec _ _ (if text ≠ textOf bytes then _ else _)
        split
        · have file : isDir entries name = false := by simp [isDir, found, TreeNode.isFile]
          have write : writeFile name text entries =
              some (put name (.file (Utf8.encode text.toList)) entries) := by
            rw [writeFile, file, if_neg Bool.false_ne_true]
          refine (spec_orThrow fun s' changed => ?_).congr ?_
          · obtain ⟨before, after, same, written, dir'⟩ := entriesAt_of_changeAt changed
            obtain rfl := Option.some.inj (dir.symm.trans same)
            obtain rfl := Option.some.inj (write.symm.trans written)
            exact ⟨_, dir', fun other ne => lookup_of_changeAt changed ne,
              fun other ne => lookup_put_of_ne ne _ _⟩
          · rw [changeAt_isSome dir, write]
            exact iff_of_true rfl rewritable
        · exact (Spec.ok ⟨entries, dir, fun _ _ => rfl, fun _ _ => rfl⟩).congr
            (iff_of_true trivial rewritable)

theorem writeFile_ends (name text : String) (s : Tree) :
    Spec (isDir s name = false)
      (fun s' => ∀ other, other ≠ name → s'.lookup other = s.lookup other)
      (orThrow (writeFile name text s)) := by
  refine (spec_orThrow fun s' written => ?_).congr ?_
  · intro other ne
    rw [put_of_writeFile written, lookup_put_of_ne ne]
  · rw [writeFile]
    cases isDir s name <;> simp

end

/-- What the entries of the agent will be moved to, as far as it is there already. -/
def agentThere (agentId : String) (tree : Tree) : Tree :=
  (entriesAt ["agents", agentId] tree).getD []

/-- All that a promotion does after its plan succeeds: the files find room, `agent.yaml` has a line
with the name, `capabilities.yaml` is a file, `package.json` is an object, and `PROMOTED.md` no
directory. -/
structure Promotable (H : PromoteHost) (agentId : String) (tree : Tree) : Prop where
  fit : AllFit tree (agentThere agentId tree) (plannedMoves tree)
  named : Rewritable (rewriteAgentYamlName agentId) (tree.lookup "agent.yaml")
  capabilities : Rewritable (fun yamlText => .ok (rewriteCapabilitiesAgent agentId yamlText))
    ((tree.lookup "capabilities.yaml").or ((agentThere agentId tree).lookup "capabilities.yaml"))
  package : ∀ bytes, tree.lookup "package.json" = some (.file bytes) →
    ∃ pkg, H.parsePackageJson (textOf bytes) = .ok pkg
  note : isDir tree "PROMOTED.md" = false

section
variable {H : PromoteHost} {plan : PromotePlan} {id : Option String} {tree s : Tree}

theorem lookup_of_planned {name : String} (h : name ∈ plannedMoves tree) :
    ∃ node, tree.lookup name = some node := by
  rw [plannedMoves, List.mem_append, List.mem_append] at h
  rcases h with (h | h) | h
  · exact Option.isSome_iff_exists.mp (List.mem_filter.mp h).2
  · have dir := (List.mem_filter.mp h).2
    rw [isDir, Option.any_eq_true_iff_get] at dir
    obtain ⟨some, -⟩ := dir
    exact Option.isSome_iff_exists.mp some
  · obtain ⟨entry, mem, rfl⟩ := List.mem_map.mp h
    refine Option.ne_none_iff_exists'.mp fun none => ?_
    exact notMem_of_lookup_eq_none none (List.mem_map_of_mem (List.mem_filter.mp mem).1)

theorem plannedMoves_nodup (distinct : (tree.map Prod.fst).Nodup) : (plannedMoves tree).Nodup := by
  have own : (perAgentFiles ++ perAgentDirs).Nodup := by decide
  rw [List.nodup_append] at own
  have notes : ((tree.filter isAgentNote).map Prod.fst).Nodup :=
    distinct.sublist (List.filter_sublist.map _)
  rw [plannedMoves, List.nodup_append, List.nodup_append]
  refine ⟨⟨own.1.filter _, own.2.1.filter _, fun a ma b mb =>
    own.2.2 a (List.mem_of_mem_filter ma) b (List.mem_of_mem_filter mb)⟩, notes, ?_⟩
  rintro a ma _ mb rfl
  obtain ⟨entry, mem, rfl⟩ := List.mem_map.mp mb
  have note := (List.mem_filter.mp mem).2
  simp only [isAgentNote, Bool.and_eq_true] at note
  have other : ∀ name ∈ perAgentFiles ++ perAgentDirs,
      ".md".toList.isSuffixOf name.toList = false := by decide
  rw [other entry.1] at note
  · exact absurd note.1.2 Bool.false_ne_true
  · rcases List.mem_append.mp ma with ma | ma
    · exact List.mem_append_left _ (List.mem_of_mem_filter ma)
    · exact List.mem_append_right _ (List.mem_of_mem_filter ma)

theorem agentYaml_of_plan (h : H.buildPromotePlan id tree = .ok plan) :
    ∃ bytes, tree.lookup "agent.yaml" = some (.file bytes) := by
  unfold PromoteHost.buildPromotePlan at h
  split at h
  · cases h
  split at h
  · cases h
  obtain ⟨yamlText, read, -⟩ := ok_of_bind h
  obtain ⟨bytes, file, -⟩ := readText_eq_ok read
  exact ⟨bytes, file⟩

theorem promotedPackage_ends (h : H.buildPromotePlan id tree = .ok plan) :
    Spec (∀ bytes, tree.lookup "package.json" = some (.file bytes) →
        ∃ pkg, H.parsePackageJson (textOf bytes) = .ok pkg)
      (fun _ => True) (H.promotedPackage plan) := by
  obtain ⟨-, -, -, existing⟩ := buildPromotePlan_spec h
  rcases existing with ⟨none, eq⟩ | ⟨bytes, file, eq⟩
  · rw [PromoteHost.promotedPackage, eq]
    refine (Spec.ok trivial).congr (iff_of_true trivial fun bytes file => ?_)
    rw [none] at file
    cases file
  · rw [PromoteHost.promotedPackage, eq]
    dsimp only
    have only (P : Utf8.Bytes → Prop) :
        (∀ bytes, tree.lookup "package.json" = some (.file bytes) → P bytes) ↔ P bytes := by
      refine ⟨fun h => h bytes file, fun h bytes' eq => ?_⟩
      obtain rfl := TreeNode.file.inj (Option.some.inj (file.symm.trans eq))
      exact h
    rw [only]
    cases eq : H.parsePackageJson (textOf bytes) with
    | ok pkg => exact (Spec.ok trivial).congr (iff_of_true trivial ⟨pkg, rfl⟩)
    | error failure =>
      exact Spec.error.congr (iff_of_false not_false (by rintro ⟨pkg, eq⟩; cases eq))

theorem rewriting_agentYaml (agentId : String) :
    rewriting agentId "agent.yaml" = some (rewriteAgentYamlName agentId) := rfl

theorem rewriting_capabilities (agentId : String) :
    rewriting agentId "capabilities.yaml" =
      some fun yamlText => .ok (rewriteCapabilitiesAgent agentId yamlText) := rfl

theorem promotable_iff {agentId : String} :
    AllFit tree (agentThere agentId tree) (plannedMoves tree) ∧
      Rewritable (rewriteAgentYamlName agentId) (tree.lookup "agent.yaml") ∧
      Rewritable (fun yamlText => .ok (rewriteCapabilitiesAgent agentId yamlText))
        ((tree.lookup "capabilities.yaml").or
          ((agentThere agentId tree).lookup "capabilities.yaml")) ∧
      (∀ bytes, tree.lookup "package.json" = some (.file bytes) →
        ∃ pkg, H.parsePackageJson (textOf bytes) = .ok pkg) ∧
      True ∧ True ∧ isDir tree "PROMOTED.md" = false ↔ Promotable H agentId tree := by
  constructor
  · rintro ⟨fit, named, capabilities, package, -, -, note⟩
    exact ⟨fit, named, capabilities, package, note⟩
  · rintro ⟨fit, named, capabilities, package, note⟩
    exact ⟨fit, named, capabilities, package, trivial, trivial, note⟩

theorem promoting_start (agentId : String) (made : mkdirAll ["agents", agentId] tree = some s) :
    Promoting agentId tree (agentThere agentId tree) [] s (agentThere agentId tree) :=
  ⟨entriesAt_of_mkdirAll made, fun _ ne => lookup_of_mkdirAll made ne, fun _ => rfl⟩

/-- **After the plan**, all succeeds exactly where the directory is promotable. -/
theorem promote_ends (h : H.buildPromotePlan id tree = .ok plan)
    (distinct : (tree.map Prod.fst).Nodup)
    (made : mkdirAll ["agents", plan.agentId] tree = some s) :
    Spec (Promotable H plan.agentId tree) (fun _ => True) (H.applyPromotePlan plan tree) := by
  obtain ⟨moves, -, fleet, existing⟩ := buildPromotePlan_spec h
  obtain ⟨yaml, yaml_eq⟩ := agentYaml_of_plan h
  have reserved : ∀ name ∈ fleetNames, name ∉ plannedMoves tree := fun name mem planned =>
    not_fleetName_of_planned planned mem
  have start := promoting_start plan.agentId made
  unfold PromoteHost.applyPromotePlan
  rw [made, moves]
  refine Spec.congr ?_ promotable_iff
  -- What each call finds is what was there at the start.
  refine (start.moves (reserved _ (by decide)) (plannedMoves_nodup distinct)
    fun name mem => lookup_of_planned mem).bind ?_
  rintro s₁ ⟨e₁, h₁⟩
  rw [List.nil_append] at h₁
  have yaml₁ : e₁.lookup "agent.yaml" = tree.lookup "agent.yaml" := by
    rw [h₁.agent, if_pos (planned_of_rewriting (rewriting_agentYaml plan.agentId) yaml_eq)]
  rw [← yaml₁]
  refine (rewriteMoved_ends h₁.dir).bind ?_
  rintro s₂ ⟨e₂, dir₂, root₂, agent₂⟩
  have capabilities₂ : e₂.lookup "capabilities.yaml" = (tree.lookup "capabilities.yaml").or
      ((agentThere plan.agentId tree).lookup "capabilities.yaml") := by
    rw [agent₂ _ (by decide), h₁.agent]
    cases found : tree.lookup "capabilities.yaml" with
    | none =>
      rw [if_neg, Option.none_or]
      intro mem
      obtain ⟨node, eq⟩ := lookup_of_planned mem
      rw [found] at eq
      cases eq
    | some node =>
      rw [if_pos (planned_of_rewriting (rewriting_capabilities plan.agentId) found),
        Option.some_or]
  rw [← capabilities₂]
  refine (rewriteMoved_ends dir₂).bind ?_
  rintro s₃ ⟨e₃, -, root₃, -⟩
  have root {name : String} (mem : name ∈ fleetNames) (ne : name ≠ "agents") :
      s₃.lookup name = tree.lookup name := by
    rw [root₃ name ne, root₂ name ne, h₁.root name ne, if_neg (reserved name mem)]
  refine (promotedPackage_ends h).bind fun pkg _ => ?_
  have package : isDir s₃ "package.json" = false := by
    rw [isDir_congr (root (by decide) (by decide))]
    rcases existing with ⟨none, -⟩ | ⟨bytes, file, -⟩
    · rw [isDir, none]
      rfl
    · rw [isDir, file]
      rfl
  refine ((writeFile_ends _ _ s₃).congr (iff_of_true package trivial)).bind fun s₄ root₄ => ?_
  have manifest : isDir s₄ "fleet.yaml" = false := by
    rw [isDir_congr ((root₄ _ (by decide)).trans (root (by decide) (by decide))), isDir, fleet]
    rfl
  refine ((writeFile_ends _ _ s₄).congr (iff_of_true manifest trivial)).bind fun s₅ root₅ => ?_
  have note : isDir s₅ "PROMOTED.md" = isDir tree "PROMOTED.md" :=
    isDir_congr ((root₅ _ (by decide)).trans ((root₄ _ (by decide)).trans
      (root (by decide) (by decide))))
  rw [← note]
  exact (writeFile_ends _ _ s₅).imp fun _ _ => trivial

/-! ### What a promotion that fails leaves -/

theorem lookup_of_rewriteMoved {agentId name other : String} {s' : Tree}
    {rewrite : String → Except PromoteFailure String}
    (h : rewriteMoved agentId name rewrite s = .ok s') (ne : other ≠ "agents") :
    s'.lookup other = s.lookup other := by
  unfold rewriteMoved at h
  split at h
  · cases h
    rfl
  · cases h
  · obtain ⟨rewritten, -, h⟩ := ok_of_bind h
    split at h
    · exact lookup_of_changeAt (some_of_orThrow h) ne
    · cases h
      rfl

theorem lookup_of_moveDown {agentId name other : String} {s' : Tree}
    (h : moveDown ["agents", agentId] name s = some s') (ne : other ≠ "agents")
    (gone : s.lookup other = none) : s'.lookup other = none := by
  obtain ⟨node, -, changed⟩ := Option.bind_eq_some_iff.mp h
  rw [lookup_of_changeAt changed ne]
  by_cases eq : other = name
  · rw [eq, lookup_remove_self]
  · rw [lookup_remove_of_ne eq, gone]

/-- A name that a promotion does not write is not back once it is gone. -/
theorem promoteSteps_keep {name : String} (other : name ∉ fleetNames) :
    ∀ step ∈ H.promoteSteps plan, ∀ s s', step s = .ok s' → s.lookup name = none →
      s'.lookup name = none := by
  obtain ⟨agents, package, manifest, note⟩ := ne_of_not_fleetName other
  intro step mem s s' eq gone
  rw [PromoteHost.promoteSteps, List.cons_append, List.mem_cons, List.mem_append,
    List.mem_flatMap] at mem
  have make (eq : makeAgentDir plan.agentId s = .ok s') : s'.lookup name = none :=
    (lookup_of_mkdirAll (some_of_orThrow eq) agents).trans gone
  rcases mem with rfl | ⟨moved, -, mem⟩ | mem
  · exact make eq
  · simp only [moveSteps, List.mem_cons, List.not_mem_nil, or_false] at mem
    rcases mem with rfl | rfl
    · exact make eq
    · exact lookup_of_moveDown (some_of_orThrow eq) agents gone
  · simp only [List.mem_cons, List.not_mem_nil, or_false] at mem
    rcases mem with rfl | rfl | rfl | rfl | rfl
    · exact (lookup_of_rewriteMoved eq agents).trans gone
    · exact (lookup_of_rewriteMoved eq agents).trans gone
    · obtain ⟨pkg, -, eq⟩ := ok_of_bind eq
      rw [put_of_writeFile (some_of_orThrow eq), lookup_put_of_ne package, gone]
    · rw [put_of_writeFile (some_of_orThrow eq), lookup_put_of_ne manifest, gone]
    · rw [put_of_writeFile (some_of_orThrow eq), lookup_put_of_ne note, gone]

/-- What moves first is `agent.yaml`. -/
theorem plannedMoves_cons {node : TreeNode} (h : tree.lookup "agent.yaml" = some node) :
    ∃ more, plannedMoves tree = "agent.yaml" :: more := by
  have first : existsIn tree "agent.yaml" = true := by rw [existsIn, h]; rfl
  rw [plannedMoves, perAgentFiles, List.filter_cons_of_pos first]
  exact ⟨_, rfl⟩

theorem run_promote_error {failure : PromoteFailure}
    (h : H.buildPromotePlan id tree = .error failure) :
    H.run (.promote id) tree = ⟨some failure, tree⟩ := by
  rw [PromoteHost.run, h]

theorem run_promote_ok (h : H.buildPromotePlan id tree = .ok plan) :
    H.run (.promote id) tree = perform (H.promoteSteps plan) tree := by
  rw [PromoteHost.run, h]

theorem fits_file (bytes : Utf8.Bytes) (name : String) (tree : Tree) :
    fits (.file bytes) (tree.lookup name) = !isDir tree name := by
  rw [isDir]
  cases tree.lookup name with
  | none => rfl
  | some node => cases node <;> rfl

/-- `agent.yaml` is the first to move. -/
def moveYaml (agentId : String) : PromoteStep :=
  fun tree => orThrow (moveDown ["agents", agentId] "agent.yaml" tree)

theorem promoteSteps_cons (h : H.buildPromotePlan id tree = .ok plan) :
    ∃ rest, H.promoteSteps plan = makeAgentDir plan.agentId :: makeAgentDir plan.agentId ::
      moveYaml plan.agentId :: rest := by
  obtain ⟨moves, -⟩ := buildPromotePlan_spec h
  obtain ⟨yaml, yaml_eq⟩ := agentYaml_of_plan h
  obtain ⟨more, cons⟩ := plannedMoves_cons yaml_eq
  rw [PromoteHost.promoteSteps, moves, cons]
  exact ⟨_, rfl⟩

theorem moveYaml_ends (h : H.buildPromotePlan id tree = .ok plan)
    (made : mkdirAll ["agents", plan.agentId] tree = some s) :
    Spec (isDir (agentThere plan.agentId tree) "agent.yaml" = false)
      (fun s' => s'.lookup "agent.yaml" = none) (moveYaml plan.agentId s) := by
  obtain ⟨yaml, yaml_eq⟩ := agentYaml_of_plan h
  have start := promoting_start plan.agentId made
  have move := start.move (by decide) List.not_mem_nil yaml_eq
  rw [moveToAgent, mkdirAll_of_entriesAt start.dir, fits_file] at move
  refine (Spec.congr move (by simp)).imp ?_
  rintro s' ⟨entries, promoting⟩
  rw [promoting.root _ (by decide), if_pos (by simp)]

/-- The first file does not move, and nothing has been done. -/
theorem perform_promote_stuck (h : H.buildPromotePlan id tree = .ok plan)
    (stuck : mkdirAll ["agents", plan.agentId] tree = none ∨
      isDir (agentThere plan.agentId tree) "agent.yaml" = true) :
    (perform (H.promoteSteps plan) tree).state = tree := by
  obtain ⟨rest, cons⟩ := promoteSteps_cons h
  rw [cons]
  rcases stuck with unmade | occupied
  · have fails : makeAgentDir plan.agentId tree = .error .thrown := by
      rw [makeAgentDir, unmade]
      rfl
    rw [perform_cons_error fails]
  · have made : mkdirAll ["agents", plan.agentId] tree = some tree := by
      cases there : entriesAt ["agents", plan.agentId] tree with
      | none =>
        rw [agentThere, there] at occupied
        cases occupied
      | some entries => exact mkdirAll_of_entriesAt there
    have makes : makeAgentDir plan.agentId tree = .ok tree := by
      rw [makeAgentDir, made]
      rfl
    have move := moveYaml_ends h made
    cases eq : moveYaml plan.agentId tree with
    | ok s =>
      rw [(move.spec s eq).1] at occupied
      cases occupied
    | error failure => rw [perform_cons_ok makes, perform_cons_ok makes, perform_cons_error eq]

/-- The first file has moved. -/
theorem perform_promote_moved (h : H.buildPromotePlan id tree = .ok plan)
    (made : mkdirAll ["agents", plan.agentId] tree = some s)
    (room : isDir (agentThere plan.agentId tree) "agent.yaml" = false) :
    (perform (H.promoteSteps plan) tree).state.lookup "agent.yaml" = none := by
  obtain ⟨rest, cons⟩ := promoteSteps_cons h
  have keeps : ∀ step ∈ rest, ∀ s s', step s = .ok s' → s.lookup "agent.yaml" = none →
      s'.lookup "agent.yaml" = none := by
    intro step mem
    have mem : step ∈ H.promoteSteps plan := by
      rw [cons]
      exact List.mem_cons_of_mem _ (List.mem_cons_of_mem _ (List.mem_cons_of_mem _ mem))
    exact promoteSteps_keep (by decide) step mem
  have makes : makeAgentDir plan.agentId tree = .ok s := by
    rw [makeAgentDir, made]
    rfl
  have makes' : makeAgentDir plan.agentId s = .ok s := by
    rw [makeAgentDir, mkdirAll_of_entriesAt (entriesAt_of_mkdirAll made)]
    rfl
  have move := moveYaml_ends h made
  obtain ⟨s', moves⟩ := move.succeeds room
  rw [cons, perform_cons_ok makes, perform_cons_ok makes', perform_cons_ok moves]
  exact perform_keeps keeps (move.spec s' moves).2

theorem promote_untouched_iff (distinct : (tree.map Prod.fst).Nodup) :
    Untouched H (.promote id) tree ↔ ∀ plan, H.buildPromotePlan id tree = .ok plan →
      mkdirAll ["agents", plan.agentId] tree = none ∨
        isDir (agentThere plan.agentId tree) "agent.yaml" = true ∨
        Promotable H plan.agentId tree := by
  unfold Untouched
  cases built : H.buildPromotePlan id tree with
  | error failure =>
    rw [run_promote_error built]
    exact iff_of_true (fun _ => SameTree.refl tree) fun plan eq => by cases eq
  | ok plan =>
    rw [run_promote_ok built]
    have only (P : PromotePlan → Prop) :
        (∀ other, Except.ok plan = (.ok other : Except PromoteFailure _) → P other) ↔ P plan := by
      refine ⟨fun h => h plan rfl, fun h other eq => ?_⟩
      cases eq
      exact h
    rw [only, ← or_assoc]
    by_cases stuck : mkdirAll ["agents", plan.agentId] tree = none ∨
        isDir (agentThere plan.agentId tree) "agent.yaml" = true
    · rw [perform_promote_stuck built stuck]
      exact iff_of_true (fun _ => SameTree.refl tree) (.inl stuck)
    · obtain ⟨made, room⟩ := not_or.mp stuck
      obtain ⟨s, made⟩ := Option.ne_none_iff_exists'.mp made
      have gone := perform_promote_moved built made (Bool.eq_false_iff.mpr room)
      have ends := promote_ends built distinct made
      rw [← promoteSteps_result] at ends
      rw [← failure_eq_none_iff ends, or_iff_right stuck]
      constructor
      · intro untouched
        by_contra failed
        obtain ⟨yaml, there⟩ := agentYaml_of_plan built
        have absent := absent_top_iff.mp ((untouched failed).absent (absent_top_iff.mpr gone))
        rw [there] at absent
        cases absent
      · intro succeeded failed
        exact absurd succeeded failed

end

/-! ### When a demotion ends well -/

/-- Some names of the entries of the agent have moved to the root. -/
structure Demoting (agentId : String) (tree there : Tree) (moved : List String)
    (s entries : Tree) : Prop where
  dir : entriesAt ["agents", agentId] s = some entries
  root : ∀ name, name ≠ "agents" →
    s.lookup name = if name ∈ moved then there.lookup name else tree.lookup name
  agent : ∀ name, entries.lookup name = if name ∈ moved then none else there.lookup name

/-- All that a demotion does after its checks succeeds: the names are free at the root,
`PROMOTED.md` is no directory, and `package.json` a file with an object. -/
structure Demotable (H : PromoteHost) (entries tree : Tree) : Prop where
  free : ∀ name ∈ entries.map Prod.fst, tree.lookup name = none
  note : ∀ below,
    (tree.lookup "PROMOTED.md").or (entries.lookup "PROMOTED.md") ≠ some (.dir below)
  package : ∀ node,
    (tree.lookup "package.json").or (entries.lookup "package.json") = some node →
      ∃ bytes pkg, node = .file bytes ∧ H.parsePackageJson (textOf bytes) = .ok pkg

section
variable {H : PromoteHost} {agentId name : String} {tree there s entries : Tree}
  {moved names : List String} {id : Option String}

theorem lookup_agents_ne_none (h : entriesAt ["agents", agentId] s = some entries) :
    s.lookup "agents" ≠ none := by
  intro gone
  rw [Directory.entriesAt, gone] at h
  cases h

theorem Demoting.move (h : Demoting agentId tree there moved s entries)
    (agents : tree.lookup "agents" ≠ none) (fresh : name ∉ moved)
    (found : ∃ node, there.lookup name = some node) :
    Spec (tree.lookup name = none)
      (fun s' => ∃ entries', Demoting agentId tree there (moved ++ [name]) s' entries')
      (H.moveToRoot agentId s name) := by
  obtain ⟨node, node_eq⟩ := found
  by_cases free : s.lookup name = none
  · have other : name ≠ "agents" := by
      rintro rfl
      exact lookup_agents_ne_none h.dir free
    have free' : tree.lookup name = none := by rwa [h.root name other, if_neg fresh] at free
    have agent : entries.lookup name = some node := by rw [h.agent name, if_neg fresh, node_eq]
    have absent : existsIn s name = false := by rw [existsIn, free]; rfl
    obtain ⟨t, changed⟩ : ∃ t, changeAt (fun entries => some (remove name entries))
        ["agents", agentId] s = some t :=
      Option.isSome_iff_exists.mp ((changeAt_isSome h.dir).trans rfl)
    obtain ⟨before, after, same, removed, dir⟩ := entriesAt_of_changeAt changed
    obtain rfl := Option.some.inj (h.dir.symm.trans same)
    obtain rfl := Option.some.inj removed
    have moves : H.moveToRoot agentId s name = .ok (put name node t) := by
      rw [PromoteHost.moveToRoot, absent, if_neg Bool.false_ne_true, moveUp, h.dir]
      simp only [Option.bind_eq_bind, Option.bind_some, agent, changed]
      rw [renameOnto_eq, lookup_of_changeAt changed other, free]
      rfl
    rw [moves]
    refine (Spec.ok ⟨remove name entries, ?_, fun name' ne => ?_, fun name' => ?_⟩).congr
      (iff_of_true trivial free')
    · rw [← dir]
      exact entriesAt_congr (lookup_put_of_ne (Ne.symm other) _ _) _
    · by_cases eq : name' = name
      · rw [eq, lookup_put_self, if_pos (by simp), node_eq]
      · rw [lookup_put_of_ne eq, lookup_of_changeAt changed ne, h.root name' ne]
        simp [eq]
    · by_cases eq : name' = name
      · rw [eq, lookup_remove_self, if_pos (by simp)]
      · rw [lookup_remove_of_ne eq, h.agent name']
        simp [eq]
  · have there' : existsIn s name = true := Option.isSome_iff_ne_none.mpr free
    rw [PromoteHost.moveToRoot, if_pos there']
    refine Spec.error.congr (iff_of_false not_false fun gone => ?_)
    by_cases other : name = "agents"
    · exact agents (other ▸ gone)
    · rw [h.root name other, if_neg fresh] at free
      exact free gone

theorem Demoting.moves (h : Demoting agentId tree there moved s entries)
    (agents : tree.lookup "agents" ≠ none) (distinct : (moved ++ names).Nodup)
    (found : ∀ name ∈ names, ∃ node, there.lookup name = some node) :
    Spec (∀ name ∈ names, tree.lookup name = none)
      (fun s' => ∃ entries', Demoting agentId tree there (moved ++ names) s' entries')
      (names.foldlM (H.moveToRoot agentId) s) := by
  induction names generalizing moved s entries with
  | nil =>
    refine (Spec.ok ⟨entries, ?_⟩).congr (by simp)
    rwa [List.append_nil]
  | cons name names ih =>
    rw [List.forall_mem_cons] at found
    have fresh : name ∉ moved := fun mem =>
      (List.nodup_append.mp distinct).2.2 name mem name List.mem_cons_self rfl
    rw [List.append_cons] at distinct ⊢
    rw [List.foldlM_cons, List.forall_mem_cons]
    refine (h.move agents fresh found.1).bind ?_
    rintro s' ⟨entries', h'⟩
    exact ih h' distinct found.2

theorem removeFile_ends (name : String) (s : Tree) :
    Spec (isDir s name = false) (fun s' => s' = remove name s) (orThrow (removeFile name s)) := by
  refine (spec_orThrow fun s' removed => remove_of_removeFile removed).congr ?_
  rw [removeFile]
  cases isDir s name <;> simp

theorem stripWorkspaces_ends (H : PromoteHost) (s : Tree) :
    Spec (∀ node, s.lookup "package.json" = some node →
        ∃ bytes pkg, node = .file bytes ∧ H.parsePackageJson (textOf bytes) = .ok pkg)
      (fun _ => True) (H.stripWorkspaces s) := by
  rw [PromoteHost.stripWorkspaces, existsIn]
  cases found : s.lookup "package.json" with
  | none =>
    exact (Spec.ok trivial).congr (iff_of_true trivial fun node eq => by cases eq)
  | some node =>
    rw [if_pos Option.isSome_some]
    have only (P : TreeNode → Prop) : (∀ n, some node = some n → P n) ↔ P node := by
      refine ⟨fun h => h node rfl, fun h n eq => ?_⟩
      cases eq
      exact h
    rw [only]
    cases node with
    | dir below =>
      have fails : readText "package.json" s = .error .thrown := by
        rw [readText, found]
      rw [fails]
      refine Spec.error.congr (iff_of_false not_false ?_)
      rintro ⟨bytes, pkg, eq, -⟩
      cases eq
    | file bytes =>
      have reads : readText "package.json" s = .ok (textOf bytes) := by
        rw [readText, found]
      have file : isDir s "package.json" = false := by rw [isDir, found]; rfl
      rw [reads, ok_bind]
      cases parsed : H.parsePackageJson (textOf bytes) with
      | error failure =>
        refine Spec.error.congr (iff_of_false not_false ?_)
        rintro ⟨bytes', pkg, eq, parsed'⟩
        cases eq
        rw [parsed] at parsed'
        cases parsed'
      | ok pkg =>
        rw [ok_bind]
        refine ((writeFile_ends _ _ s).imp fun _ _ => trivial).congr ?_
        exact iff_of_true file ⟨bytes, pkg, rfl, parsed⟩

theorem demotable_iff :
    (∀ name ∈ entries.map Prod.fst, tree.lookup name = none) ∧
      True ∧ (∀ below,
        (tree.lookup "PROMOTED.md").or (entries.lookup "PROMOTED.md") ≠ some (.dir below)) ∧
      (∀ node, (tree.lookup "package.json").or (entries.lookup "package.json") = some node →
        ∃ bytes pkg, node = .file bytes ∧ H.parsePackageJson (textOf bytes) = .ok pkg) ↔
      Demotable H entries tree := by
  constructor
  · rintro ⟨free, -, note, package⟩
    exact ⟨free, note, package⟩
  · rintro ⟨free, note, package⟩
    exact ⟨free, trivial, note, package⟩

theorem checkDemote_spec (h : H.checkDemote id tree = .ok (agentId, entries)) :
    entriesAt ["agents", agentId] tree = some entries ∧
      ∃ bytes, tree.lookup "fleet.yaml" = some (.file bytes) := by
  unfold PromoteHost.checkDemote at h
  split at h
  · cases h
  obtain ⟨manifestText, read, h⟩ := ok_of_bind h
  obtain ⟨bytes, file, -⟩ := readText_eq_ok read
  refine ⟨?_, bytes, file⟩
  obtain ⟨onlyId, -, h⟩ := ok_of_bind h
  dsimp only at h
  split at h
  · cases h
  split at h
  · cases h
  split at h
  · cases h
  rename_i dir
  cases h
  exact dir

/-- The root after the moves. -/
theorem Demoting.lookup (h : Demoting agentId tree there (there.map Prod.fst) s entries)
    (free : ∀ name ∈ there.map Prod.fst, tree.lookup name = none) (other : name ≠ "agents") :
    s.lookup name = (tree.lookup name).or (there.lookup name) := by
  rw [h.root name other]
  split
  · rename_i mem
    rw [free name mem, Option.none_or]
  · rename_i notMem
    rw [lookup_eq_none_of_notMem notMem, Option.or_none]

/-- **After the checks**, all succeeds exactly where the agent is demotable. -/
theorem demote_ends (h : H.checkDemote id tree = .ok (agentId, there))
    (distinct : (there.map Prod.fst).Nodup) :
    Spec (Demotable H there tree) (fun _ => True)
      (H.moveBack agentId (there.map Prod.fst) tree) := by
  obtain ⟨dir, manifest, manifest_eq⟩ := checkDemote_spec h
  have start : Demoting agentId tree there [] tree there := ⟨dir, fun _ _ => rfl, fun _ => rfl⟩
  have found : ∀ name ∈ there.map Prod.fst, ∃ node, there.lookup name = some node := by
    intro name mem
    refine Option.ne_none_iff_exists'.mp fun none => ?_
    exact notMem_of_lookup_eq_none none mem
  unfold PromoteHost.moveBack
  refine Spec.congr ?_ demotable_iff
  refine (start.moves (lookup_agents_ne_none dir) distinct found).also.bind ?_
  rintro s₁ ⟨free, e₁, h₁⟩
  rw [List.nil_append] at h₁
  have file : isDir (remove "agents" s₁) "fleet.yaml" = false := by
    rw [isDir, lookup_remove_of_ne (by decide), h₁.lookup free (by decide), manifest_eq]
    rfl
  refine ((removeFile_ends "fleet.yaml" _).congr (iff_of_true file trivial)).bind ?_
  rintro s₂ rfl
  have note : isDir (remove "fleet.yaml" (remove "agents" s₁)) "PROMOTED.md" = false ↔
      ∀ below, (tree.lookup "PROMOTED.md").or (there.lookup "PROMOTED.md") ≠ some (.dir below) := by
    rw [isDir_eq_false_iff, lookup_remove_of_ne (by decide), lookup_remove_of_ne (by decide),
      h₁.lookup free (by decide)]
  refine ((removeFile_ends "PROMOTED.md" _).congr note).bind ?_
  rintro s₃ rfl
  have package : (remove "PROMOTED.md" (remove "fleet.yaml" (remove "agents" s₁))).lookup
      "package.json" = (tree.lookup "package.json").or (there.lookup "package.json") := by
    rw [lookup_remove_of_ne (by decide), lookup_remove_of_ne (by decide),
      lookup_remove_of_ne (by decide), h₁.lookup free (by decide)]
  rw [← package]
  exact stripWorkspaces_ends H _

/-! ### What a demotion that fails leaves -/

/-- Once moved, a name is not back among the entries of the agent. -/
def Emptied (agentId name : String) (s : Tree) : Prop :=
  ∀ entries, entriesAt ["agents", agentId] s = some entries → entries.lookup name = none

theorem emptied_moveToRoot {s' : Tree} {other : String}
    (h : H.moveToRoot agentId s other = .ok s') (emptied : Emptied agentId name s) :
    Emptied agentId name s' := by
  unfold PromoteHost.moveToRoot at h
  split at h
  · cases h
  rename_i free
  have free := Option.not_isSome_iff_eq_none.mp free
  obtain ⟨entries, dir, h⟩ := Option.bind_eq_some_iff.mp (some_of_orThrow h)
  obtain ⟨node, -, h⟩ := Option.bind_eq_some_iff.mp h
  obtain ⟨t, changed, h⟩ := Option.bind_eq_some_iff.mp h
  obtain ⟨before, after, same, removed, dir'⟩ := entriesAt_of_changeAt changed
  obtain rfl := Option.some.inj (dir.symm.trans same)
  obtain rfl := Option.some.inj removed
  have ne : other ≠ "agents" := by
    rintro rfl
    exact lookup_agents_ne_none dir free
  rw [renameOnto_eq] at h
  split at h
  · obtain rfl := Option.some.inj h
    intro entries' dir''
    rw [entriesAt_congr (lookup_put_of_ne (Ne.symm ne) _ _), dir'] at dir''
    obtain rfl := Option.some.inj dir''
    by_cases eq : name = other
    · rw [eq, lookup_remove_self]
    · rw [lookup_remove_of_ne eq, emptied _ dir]
  · cases h

/-- What is done after the moves, and after `agents` is removed. -/
def lastSteps (H : PromoteHost) : List PromoteStep :=
  [fun tree => orThrow (removeFile "fleet.yaml" tree),
    fun tree => orThrow (removeFile "PROMOTED.md" tree), H.stripWorkspaces]

theorem lookup_agents_lastSteps :
    ∀ step ∈ lastSteps H, ∀ s s', step s = .ok s' → s'.lookup "agents" = s.lookup "agents" := by
  intro step mem s s' eq
  simp only [lastSteps, List.mem_cons, List.not_mem_nil, or_false] at mem
  rcases mem with rfl | rfl | rfl
  · rw [remove_of_removeFile (some_of_orThrow eq), lookup_remove_of_ne (by decide)]
  · rw [remove_of_removeFile (some_of_orThrow eq), lookup_remove_of_ne (by decide)]
  · exact stripWorkspaces_of_lookup_ne eq (by decide)

theorem demoteSteps_keep :
    ∀ step ∈ H.demoteSteps agentId names, ∀ s s', step s = .ok s' → Emptied agentId name s →
      Emptied agentId name s' := by
  intro step mem s s' eq emptied
  rcases List.mem_append.mp mem with mem | mem
  · obtain ⟨other, -, rfl⟩ := List.mem_map.mp mem
    exact emptied_moveToRoot eq emptied
  · rcases List.mem_cons.mp mem with rfl | mem
    · cases eq
      intro entries dir
      exact absurd (lookup_remove_self "agents" s) (lookup_agents_ne_none dir)
    · intro entries dir
      rw [entriesAt_congr (lookup_agents_lastSteps step mem s s' eq)] at dir
      exact emptied entries dir

theorem run_demote_error {failure : PromoteFailure}
    (h : H.checkDemote id tree = .error failure) :
    H.run (.demote id) tree = ⟨some failure, tree⟩ := by
  rw [PromoteHost.run, h]

theorem run_demote_ok (h : H.checkDemote id tree = .ok (agentId, entries)) :
    H.run (.demote id) tree =
      perform (H.demoteSteps agentId (entries.map Prod.fst)) tree := by
  rw [PromoteHost.run, h]

/-- The first name that moves is taken at the root. -/
def FirstTaken (entries tree : Tree) : Prop :=
  ∃ name, (entries.map Prod.fst).head? = some name ∧ tree.lookup name ≠ none

/-- The first file does not move, and nothing has been done. -/
theorem perform_demote_stuck (stuck : FirstTaken entries tree) :
    (perform (H.demoteSteps agentId (entries.map Prod.fst)) tree).state = tree := by
  obtain ⟨name, first, taken⟩ := stuck
  obtain ⟨names, cons⟩ := List.head?_eq_some_iff.mp first
  have there : existsIn tree name = true := Option.isSome_iff_ne_none.mpr taken
  rw [cons, PromoteHost.demoteSteps, List.map_cons, List.cons_append]
  have fails : ∃ failure, H.moveToRoot agentId tree name = .error failure := by
    rw [PromoteHost.moveToRoot, if_pos there]
    exact ⟨_, rfl⟩
  obtain ⟨failure, fails⟩ := fails
  rw [perform_cons_error fails]

/-- Something is gone from below `agents`. -/
theorem perform_demote_moved (h : H.checkDemote id tree = .ok (agentId, there))
    (free : ¬FirstTaken there tree) :
    ¬SameTree tree (perform (H.demoteSteps agentId (there.map Prod.fst)) tree).state := by
  obtain ⟨dir, -⟩ := checkDemote_spec h
  have start : Demoting agentId tree there [] tree there := ⟨dir, fun _ _ => rfl, fun _ => rfl⟩
  intro same
  cases keys : there.map Prod.fst with
  | nil =>
    rw [keys] at same
    have gone : (perform (H.demoteSteps agentId []) tree).state.lookup "agents" = none := by
      change (perform (lastSteps H) (remove "agents" tree)).state.lookup "agents" = none
      have keeps : ∀ step ∈ lastSteps H, ∀ s s', step s = .ok s' → s.lookup "agents" = none →
          s'.lookup "agents" = none := fun step mem s s' eq gone =>
        (lookup_agents_lastSteps step mem s s' eq).trans gone
      exact perform_keeps keeps (lookup_remove_self "agents" tree)
    exact lookup_agents_ne_none dir (absent_top_iff.mp (same.absent (absent_top_iff.mpr gone)))
  | cons name names =>
    have found : there.lookup name ≠ none := fun none =>
      notMem_of_lookup_eq_none none (keys ▸ List.mem_cons_self)
    have free : tree.lookup name = none := by
      by_contra taken
      exact free ⟨name, by rw [keys]; rfl, taken⟩
    have move : Spec _ _ (H.moveToRoot agentId tree name) :=
      start.move (lookup_agents_ne_none dir) List.not_mem_nil
        (Option.ne_none_iff_exists'.mp found)
    obtain ⟨s', moves⟩ := move.succeeds free
    obtain ⟨entries', promoting⟩ := (move.spec s' moves).2
    have emptied : Emptied agentId name s' := by
      intro entries'' dir'
      obtain rfl := Option.some.inj (promoting.dir.symm.trans dir')
      rw [promoting.agent, if_pos (by simp)]
    rw [keys] at same
    have left : Emptied agentId name
        (perform (H.demoteSteps agentId (name :: names)) tree).state := by
      rw [PromoteHost.demoteSteps, List.map_cons, List.cons_append, perform_cons_ok moves]
      have keeps : ∀ step ∈ H.demoteSteps agentId names, ∀ s s', step s = .ok s' →
          Emptied agentId name s → Emptied agentId name s' := demoteSteps_keep
      exact perform_keeps keeps emptied
    exact not_absent_below dir found (same.absent (absent_below left))

theorem demote_untouched_iff (distinct : Distinct tree) :
    Untouched H (.demote id) tree ↔ ∀ agentId entries,
      H.checkDemote id tree = .ok (agentId, entries) →
        FirstTaken entries tree ∨ Demotable H entries tree := by
  unfold Untouched
  cases checked : H.checkDemote id tree with
  | error failure =>
    rw [run_demote_error checked]
    exact iff_of_true (fun _ => SameTree.refl tree) fun agentId entries eq => by cases eq
  | ok found =>
    obtain ⟨agentId, entries⟩ := found
    rw [run_demote_ok checked]
    have only (P : String → Tree → Prop) : (∀ a e, Except.ok (agentId, entries) =
        (.ok (a, e) : Except PromoteFailure _) → P a e) ↔ P agentId entries := by
      refine ⟨fun h => h agentId entries rfl, fun h a e eq => ?_⟩
      cases eq
      exact h
    rw [only fun _ entries => FirstTaken entries tree ∨ Demotable H entries tree]
    by_cases stuck : FirstTaken entries tree
    · rw [perform_demote_stuck stuck]
      exact iff_of_true (fun _ => SameTree.refl tree) (.inl stuck)
    · have ends := demote_ends checked (distinct _ _ (checkDemote_spec checked).1)
      rw [← demoteSteps_result] at ends
      rw [← failure_eq_none_iff ends, or_iff_right stuck]
      constructor
      · intro untouched
        by_contra failed
        exact perform_demote_moved checked stuck (untouched failed)
      · intro succeeded failed
        exact absurd succeeded failed

end

/-- What the commands can find out too late is not so, or is found out before the first file has
moved. -/
def FoundOutFirst (H : PromoteHost) (tree : Tree) : Conversion → Prop
  | .promote id => ∀ plan, H.buildPromotePlan id tree = .ok plan →
      mkdirAll ["agents", plan.agentId] tree = none ∨
        isDir (agentThere plan.agentId tree) "agent.yaml" = true ∨
        Promotable H plan.agentId tree
  | .demote id => ∀ agentId entries, H.checkDemote id tree = .ok (agentId, entries) →
      FirstTaken entries tree ∨ Demotable H entries tree

/-- **The claim about a command that fails.**  Whatever the reason, it leaves the directory as it
was exactly where the reason is found out before the first file has moved. -/
theorem untouched_iff (H : PromoteHost) (command : Conversion) (root : DirectoryTree) :
    Untouched H command root.tree ↔ FoundOutFirst H root.tree command := by
  cases command with
  | promote id => exact promote_untouched_iff (root.distinct [] root.tree rfl)
  | demote id => exact demote_untouched_iff root.distinct

/-- The entries of the agent `bot`, of which one is at the root as well. -/
def botEntries : Tree :=
  [("agent.yaml", .file (Utf8.encode "name: bot\n".toList)), ("README.md", .file [])]

def clobberedTree : Tree :=
  [("fleet.yaml", .file (Utf8.encode (renderFleetOfOneManifest "bot").toList)),
    ("README.md", .file []), ("agents", .dir [("bot", .dir botEntries)])]

theorem distinct_clobberedTree : Distinct clobberedTree := by
  have inBot : Distinct botEntries := by
    refine .of_entries (by decide) fun name below found => ?_
    simp only [botEntries, List.lookup_cons, List.lookup_nil] at found
    split at found
    · cases found
    · split at found <;> cases found
  have inAgents : Distinct [("bot", .dir botEntries)] := by
    refine .of_entries (by decide) fun name below found => ?_
    rw [List.lookup_cons] at found
    split at found
    · cases found
      exact inBot
    · cases found
  refine .of_entries (by decide) fun name below found => ?_
  simp only [clobberedTree, List.lookup_cons, List.lookup_nil] at found
  split at found
  · cases found
  · split at found
    · cases found
    · split at found
      · cases found
        exact inAgents
      · cases found

def clobbered : DirectoryTree := ⟨clobberedTree, distinct_clobberedTree⟩

theorem checkDemote_clobbered :
    botHost.checkDemote none clobberedTree = .ok ("bot", botEntries) := by
  have reads : readText "fleet.yaml" clobberedTree = .ok (renderFleetOfOneManifest "bot") :=
    readText_encode rfl
  have valid : (!isAgentId "bot") = false := rfl
  have manifest : (!existsIn clobberedTree "fleet.yaml") = false := rfl
  unfold PromoteHost.checkDemote
  rw [manifest, if_neg Bool.false_ne_true, reads, ok_bind, botHost_readsBack, ok_bind]
  dsimp only [Option.getD_none]
  rw [if_neg (not_not_intro rfl), valid, if_neg Bool.false_ne_true]
  rfl

/-- `agent.yaml` has moved to the root when `README.md` is found to be there already. -/
theorem demote_half_done : ¬Untouched botHost (.demote none) clobbered.tree := by
  intro untouched
  rw [demote_untouched_iff clobbered.distinct] at untouched
  rcases untouched _ _ checkDemote_clobbered with ⟨name, first, taken⟩ | demotable
  · cases first
    exact taken rfl
  · have := demotable.free "README.md" (by decide)
    cases this

end Declaragent.Fleet
