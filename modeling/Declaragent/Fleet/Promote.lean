import Declaragent.Fleet.PackageJson
import Declaragent.Library.JsNumber

/-!
# Fleet — promote and demote

`fleet promote --apply` makes the directory of a single agent a fleet of one: the files of the agent
move to `agents/<id>`, and the root gets a `fleet.yaml`, a `PROMOTED.md` and a `package.json` with
workspaces.  `fleet demote` moves the files back.  The steps that a plan prints are left out.

* `promotedTree_of_apply`: the fleet that a promotion leaves.
* `PromotedTree.demote`: what a demotion makes of it.
* `strictInverse_iff`: the directories that come back as they were.
-/

namespace Declaragent.Fleet
open JsonText Directory

/-! ### What is written -/

inductive PromoteFailure where
  /-- A `FleetScaffoldError`. -/
  | scaffold (message : String)
  /-- Thrown by the file system, or for a text that does not parse. -/
  | thrown

def orThrow {α : Type} : Option α → Except PromoteFailure α
  | some a => .ok a
  | none => .error .thrown

def readText (name : String) (tree : Tree) : Except PromoteFailure String :=
  match tree.lookup name with
  | some (.file bytes) => .ok (textOf bytes)
  | _ => .error .thrown

/-- `/^[a-z0-9][a-z0-9_-]*$/i`. -/
def isAgentId (value : String) : Bool :=
  match value.toList with
  | [] => false
  | c :: cs => c.isAlphanum && cs.all fun c => c.isAlphanum || c = '_' || c = '-'

def isLineTerminator (c : Char) : Bool := c.toNat ∈ [0x0a, 0x0d, 0x2028, 0x2029]

/-- What stands before and after the first match of `/^key\s*[^\n]*$/m`. -/
def findLine (key : List Char) : Bool → List Char → Option (List Char × List Char)
  | lineStart, cs =>
    if lineStart && key.isPrefixOf cs then
      -- the blanks after the key may go on to the next line
      some ([], ((cs.drop key.length).dropWhile Numeral.isWhite).dropWhile (· ≠ '\n'))
    else
      match cs with
      | [] => none
      | c :: cs => (findLine key (isLineTerminator c) cs).map fun p => (c :: p.1, p.2)

def replaceLine (key line text : String) : Option String :=
  (findLine key.toList true text.toList).map fun p =>
    String.ofList (p.1 ++ line.toList ++ p.2)

def rewriteAgentYamlName (newName yamlText : String) : Except PromoteFailure String :=
  match replaceLine "name:" ("name: " ++ newName) yamlText with
  | some rewritten => .ok rewritten
  | none => .error (.scaffold
      "agent.yaml has no top-level `name:` line — refusing to rewrite blindly")

def rewriteCapabilitiesAgent (newId yamlText : String) : String :=
  (replaceLine "agent:" ("agent: agent://" ++ newId) yamlText).getD yamlText

def renderFleetOfOneManifest (agentId : String) : String :=
  "version: 1\nname: " ++ agentId ++
    "\ndescription: \"Fleet-of-one promoted from a single-agent directory.\"\n\n" ++
    "agents:\n  - id: " ++ agentId ++ "\n    path: ./agents/" ++ agentId ++
    "\n\nenvironments:\n  default:\n    peersRef: ./rpc-peers.yaml\n"

def renderPromotedNote (agentId sourcePath today : String) : String :=
  "# Promoted to a fleet\n\nThis directory was converted from a single-agent layout into a\n" ++
    "fleet-of-one on " ++ today ++ " by\n`declaragent fleet promote " ++ sourcePath ++
    "`.\n\n- Agent id: `" ++ agentId ++
    "`\n- Manifest: `./fleet.yaml`\n- Agent files moved under: `./agents/" ++ agentId ++
    "/`\n\n## Inverse\n\n```bash\ndeclaragent fleet demote " ++ agentId ++
    "\n```\n\nFleet-of-one demote restores the original single-agent layout. See\n" ++
    "`docs/FLEET_PLAN.md` §7 + §14.10 for the full contract.\n"

/-- `String(value)`. -/
def jsText : JsValue → String
  | .undefined => "undefined"
  | .null => "null"
  | .bool b => if b then "true" else "false"
  | .num n => n.text
  | .nonFinite .nan => "NaN"
  | .nonFinite (.infinity negative) => if negative then "-Infinity" else "Infinity"
  | .str s => s
  | .arr items => ",".intercalate (items.attach.map fun ⟨item, _⟩ =>
    match item with
    | .undefined | .null => ""
    | item => jsText item)
  | .obj _ => "[object Object]"

/-- `!value`. -/
def isFalsy : JsValue → Bool
  | .undefined | .null | .bool false | .nonFinite .nan => true
  | .num n => n.mantissa = 0
  | .str s => s = ""
  | _ => false

/-! ### Promote -/

/-- The files that belong to a single agent. -/
def perAgentFiles : List String :=
  ["agent.yaml", "capabilities.yaml", "event-sources.yaml", "rpc-peers.yaml", "channels.yaml",
    "tenants.yaml", "secrets.yaml"]

def perAgentDirs : List String := ["skills"]

/-- A Markdown file of the root goes with the agent, except for `PROMOTED.md`. -/
def isAgentNote (entry : String × TreeNode) : Bool :=
  entry.2.isFile && ".md".toList.isSuffixOf entry.1.toList && entry.1 ≠ "PROMOTED.md"

/-- The names that move to `agents/<id>`. -/
def plannedMoves (tree : Tree) : List String :=
  perAgentFiles.filter (existsIn tree) ++ perAgentDirs.filter (isDir tree) ++
    (tree.filter isAgentNote).map Prod.fst

structure PromotePlan where
  agentId : String
  moves : List String
  /-- The text of the `package.json`, if there is one. -/
  existing : Option String

/-- One of the moves; the directory exists already. -/
def moveToAgent (agentId : String) (tree : Tree) (name : String) : Option Tree := do
  let tree ← mkdirAll ["agents", agentId] tree
  moveDown ["agents", agentId] name tree

/-- Rewrite a file that has moved, and write it if that changes it. -/
def rewriteMoved (agentId name : String) (rewrite : String → Except PromoteFailure String)
    (tree : Tree) : Except PromoteFailure Tree :=
  match (entriesAt ["agents", agentId] tree).bind (List.lookup name) with
  | none => .ok tree
  | some (.dir _) => .error .thrown
  | some (.file bytes) => do
      let rewritten ← rewrite (textOf bytes)
      if rewritten ≠ textOf bytes then
        orThrow (changeAt (writeFile name rewritten) ["agents", agentId] tree)
      else .ok tree

/-- What the commands use besides the directory. -/
structure PromoteHost where
  parseYaml : String → Option JsValue
  format : RoundingFormat
  /-- The absolute path of an entry. -/
  path : List String → String
  /-- `new Date().toISOString().slice(0, 10)`. -/
  today : String

namespace PromoteHost
variable (H : PromoteHost)

def readNameField (yamlText : String) : Except PromoteFailure String :=
  match H.parseYaml yamlText with
  | none => .error .thrown
  | some parsed =>
    match parsed.get "name" with
    | .str name =>
      if name = "" then .error (.scaffold
        "agent.yaml is missing a top-level `name:` field — cannot promote")
      else .ok name
    | _ => .error (.scaffold "agent.yaml is missing a top-level `name:` field — cannot promote")

def parsePackageJson (text : String) : Except PromoteFailure (List (String × JsValue)) :=
  match jsonParse H.format.toNumberFormat text with
  | none => .error .thrown
  | some (.obj pkg) => .ok pkg
  | some _ => .error (.scaffold "package.json root is not an object — refusing to rewrite")

def buildPromotePlan (id : Option String) (tree : Tree) : Except PromoteFailure PromotePlan :=
  if existsIn tree "fleet.yaml" then .error (.scaffold
    ("fleetPromote: " ++ H.path [] ++ " already contains fleet.yaml — it's already a fleet"))
  else if !existsIn tree "agent.yaml" then .error (.scaffold
    ("fleetPromote: " ++ H.path [] ++ " has no agent.yaml — not a single-agent directory"))
  else do
    let sourceName ← H.readNameField (← readText "agent.yaml" tree)
    let agentId := id.getD sourceName
    if !isAgentId agentId then .error (.scaffold
      ("fleetPromote: agent id \"" ++ agentId ++ "\" must be a URL-safe identifier (a-z0-9-_)"))
    else
      let existing ← if existsIn tree "package.json" then some <$> readText "package.json" tree
        else pure none
      pure ⟨agentId, plannedMoves tree, existing⟩

def promotedPackage (plan : PromotePlan) : Except PromoteFailure (List (String × JsValue)) :=
  match plan.existing with
  | some text => withWorkspaces <$> H.parsePackageJson text
  | none => .ok (minimalPackage plan.agentId)

def applyPromotePlan (plan : PromotePlan) (tree : Tree) : Except PromoteFailure Tree := do
  let tree ← orThrow (mkdirAll ["agents", plan.agentId] tree)
  let tree ← orThrow (plan.moves.foldlM (moveToAgent plan.agentId) tree)
  let tree ← rewriteMoved plan.agentId "agent.yaml" (rewriteAgentYamlName plan.agentId) tree
  let tree ← rewriteMoved plan.agentId "capabilities.yaml"
    (fun yamlText => .ok (rewriteCapabilitiesAgent plan.agentId yamlText)) tree
  let pkg ← H.promotedPackage plan
  let tree ← orThrow (writeFile "package.json" (packageText pkg) tree)
  let tree ← orThrow (writeFile "fleet.yaml" (renderFleetOfOneManifest plan.agentId) tree)
  orThrow (writeFile "PROMOTED.md" (renderPromotedNote plan.agentId (H.path []) H.today) tree)

end PromoteHost

/-! ### Demote -/

/-- The ids of the agents, for an error; an agent that is nullish has no `id`. -/
def idsOf (agents : List JsValue) : Option (List String) :=
  agents.mapM fun
    | .undefined | .null => none
    | agent => some (jsText (orElse (.str "<unknown>") (agent.get "id")))

namespace PromoteHost
variable (H : PromoteHost)

/-- The id of the only agent of a manifest. -/
def soleAgentId (manifestText : String) : Except PromoteFailure String :=
  match H.parseYaml manifestText with
  | none => .error .thrown
  | some manifest =>
    match manifest.get "agents" with
    | .arr [] => .error (.scaffold
        "fleetDemote: fleet has zero agents — nothing to demote. Delete fleet.yaml manually.")
    | .arr [only] =>
      if isFalsy only then
        .error (.scaffold "fleetDemote: empty agents[] after length check")
      else .ok (jsText (orElse (.str "") (only.get "id")))
    | .arr agents =>
      match idsOf agents with
      | none => .error .thrown
      | some ids => .error (.scaffold
          ("fleetDemote: fleet has " ++ toString agents.length ++ " agents (" ++
            ", ".intercalate ids ++ "). `fleet demote` only supports fleet-of-one; for N>1 " ++
            "use `fleet remove <id>` + manual extraction (see FLEET_PLAN.md §14.10)."))
    | _ => .error (.scaffold ("fleetDemote: " ++ H.path ["fleet.yaml"] ++
        " is not a valid fleet manifest (missing agents[])"))

/-- One of the moves back; nothing of the root is replaced. -/
def moveToRoot (agentId : String) (tree : Tree) (name : String) : Except PromoteFailure Tree :=
  if existsIn tree name then .error (.scaffold
    ("fleetDemote: refusing to clobber existing " ++ H.path [name] ++ " at the fleet root"))
  else orThrow (moveUp ["agents", agentId] name tree)

def stripWorkspaces (tree : Tree) : Except PromoteFailure Tree :=
  if existsIn tree "package.json" then do
    let pkg ← H.parsePackageJson (← readText "package.json" tree)
    orThrow (writeFile "package.json" (packageText (withoutWorkspaces pkg)) tree)
  else .ok tree

/-- Move the entries of the agent back, and remove what the fleet has added. -/
def moveBack (agentId : String) (names : List String) (tree : Tree) :
    Except PromoteFailure Tree := do
  let tree ← names.foldlM (H.moveToRoot agentId) tree
  let tree ← orThrow (removeFile "fleet.yaml" (remove "agents" tree))
  let tree ← orThrow (removeFile "PROMOTED.md" tree)
  H.stripWorkspaces tree

def applyDemote (id : Option String) (tree : Tree) : Except PromoteFailure Tree :=
  if !existsIn tree "fleet.yaml" then .error (.scaffold
    ("fleetDemote: " ++ H.path ["fleet.yaml"] ++ " does not exist — nothing to demote"))
  else do
    let onlyId ← H.soleAgentId (← readText "fleet.yaml" tree)
    let expectedId := id.getD onlyId
    if expectedId ≠ onlyId then .error (.scaffold
      ("fleetDemote: requested id \"" ++ expectedId ++ "\" does not match the sole fleet member \""
        ++ onlyId ++ "\""))
    else if !isAgentId expectedId then .error (.scaffold
      ("fleetDemote: agent id \"" ++ expectedId ++ "\" must be a URL-safe identifier"))
    else
      match entriesAt ["agents", expectedId] tree with
      | none => .error (.scaffold ("fleetDemote: expected " ++ H.path ["agents", expectedId] ++
          " to be a directory but it is missing"))
      | some entries => H.moveBack expectedId (entries.map Prod.fst) tree

end PromoteHost

/-! ### There and back -/

/-- The files that a promotion writes to, where it moves them. -/
def editedFiles : List String := ["agent.yaml", "capabilities.yaml", "package.json"]

/-- Every other file is there after the promotion, in its place or below `agents/<id>`. -/
def NothingLost (agentId : String) (tree promoted : Tree) : Prop :=
  ∀ path bytes, fileAt path tree = some bytes → (∀ name ∈ editedFiles, path ≠ [name]) →
    fileAt path promoted = some bytes ∨ fileAt ("agents" :: agentId :: path) promoted = some bytes

/-- The texts have the same JSON value. -/
def SameJson (F : NumberFormat) : Option TreeNode → Option TreeNode → Prop
  | some (.file bytes), some (.file bytes') =>
    jsonParse F (textOf bytes) = jsonParse F (textOf bytes')
  | none, none => True
  | _, _ => False

/-- The same directory, where `package.json` is compared as JSON. -/
def Restored (F : NumberFormat) (tree restored : Tree) : Prop :=
  (∀ name, name ≠ "package.json" → restored.lookup name = tree.lookup name) ∧
    SameJson F (tree.lookup "package.json") (restored.lookup "package.json")

/-- The promotion loses nothing, and the demotion gives the directory back. -/
def StrictInverse (H : PromoteHost) (agentId : String) (id : Option String)
    (tree promoted : Tree) : Prop :=
  NothingLost agentId tree promoted ∧
    ∃ restored, H.applyDemote id promoted = .ok restored ∧
      Restored H.format.toNumberFormat tree restored

/-- The file that a promotion rewrites, and how. -/
def rewriting (agentId name : String) : Option (String → Except PromoteFailure String) :=
  if name = "agent.yaml" then some (rewriteAgentYamlName agentId)
  else if name = "capabilities.yaml" then
    some fun yamlText => .ok (rewriteCapabilitiesAgent agentId yamlText)
  else none

/-- There is no `agents` and no `PROMOTED.md` yet, YAML reads the unquoted id as it is written, the
two files name the agent so already, and `package.json` says whether it is private, has no
workspaces, and no number that JSON cannot write. -/
structure Reversible (H : PromoteHost) (agentId : String) (tree : Tree) : Prop where
  agents : tree.lookup "agents" = none
  note : tree.lookup "PROMOTED.md" = none
  readsBack : H.soleAgentId (renderFleetOfOneManifest agentId) = .ok agentId
  named : ∀ name rewrite bytes, rewriting agentId name = some rewrite →
    tree.lookup name = some (.file bytes) → rewrite (textOf bytes) = .ok (textOf bytes)
  package : ∃ bytes pkg, tree.lookup "package.json" = some (.file bytes) ∧
    jsonParse H.format.toNumberFormat (textOf bytes) = some (.obj pkg) ∧
      pkg.lookup "workspaces" = none ∧
      isNullish ((JsValue.obj pkg).get "private") = false ∧
      received H.format.toNumberFormat (.obj pkg) = .obj pkg

/-! ### The directory of the agent -/

/-- The entries of the only agent. -/
def AgentEntries (agentId : String) (entries tree : Tree) : Prop :=
  tree.lookup "agents" = some (.dir [(agentId, .dir entries)])

def withEntries (agentId : String) (tree entries : Tree) : Tree :=
  put "agents" (.dir [(agentId, .dir entries)]) tree

section
variable {agentId : String} {entries tree : Tree}

theorem agentEntries_withEntries :
    AgentEntries agentId entries (withEntries agentId tree entries) :=
  lookup_put_self ..

theorem lookup_withEntries {name : String} (h : name ≠ "agents") :
    (withEntries agentId tree entries).lookup name = tree.lookup name :=
  lookup_put_of_ne h ..

theorem mkdirAll_new (h : tree.lookup "agents" = none) :
    mkdirAll ["agents", agentId] tree = some (withEntries agentId tree []) := by
  simp [mkdirAll, h, withEntries, put]

namespace AgentEntries

theorem entriesAt (h : AgentEntries agentId entries tree) :
    entriesAt ["agents", agentId] tree = some entries := by
  unfold AgentEntries at h
  simp [Directory.entriesAt, h]

theorem entriesAt_other {other : String} (h : AgentEntries agentId entries tree)
    (hne : other ≠ agentId) : Directory.entriesAt ["agents", other] tree = none := by
  unfold AgentEntries at h
  simp [Directory.entriesAt, h, List.lookup_cons, beq_eq_false_iff_ne.mpr hne]

theorem changeAt (h : AgentEntries agentId entries tree) (change : Tree → Option Tree) :
    changeAt change ["agents", agentId] tree =
      (change entries).map (withEntries agentId tree) := by
  unfold AgentEntries at h
  simp only [Directory.changeAt, h, List.lookup_cons, beq_self_eq_true, Option.map_map]
  refine congrArg (fun f => (change entries).map f) (funext fun entries' => ?_)
  simp [withEntries, put]

theorem mkdirAll (h : AgentEntries agentId entries tree) :
    mkdirAll ["agents", agentId] tree = some tree := by
  unfold AgentEntries at h
  simp [Directory.mkdirAll, h, put, put_of_lookup h]

end AgentEntries

end

/-! ### The moves -/

/-- Some names have moved from the root to the entries of the agent. -/
structure Moved (agentId : String) (tree : Tree) (names : List String) (entries s : Tree) :
    Prop where
  agents : AgentEntries agentId entries s
  rest : ∀ name, name ≠ "agents" →
    s.lookup name = if name ∈ names then none else tree.lookup name
  keys : entries.map Prod.fst = names
  nodup : names.Nodup
  found : ∀ name ∈ names, ∃ node, entries.lookup name = some node ∧ tree.lookup name = some node

section
variable {agentId : String} {tree s s' : Tree} {names : List String}

theorem AgentEntries.remove {entries : Tree} (h : AgentEntries agentId entries s) {name : String}
    (hname : name ≠ "agents") : AgentEntries agentId entries (remove name s) :=
  (lookup_remove_of_ne (Ne.symm hname) s).trans h

/-- **One move.** -/
theorem Moved.move {entries : Tree} (h : Moved agentId tree names entries s) {name : String}
    (hname : name ≠ "agents") (hmove : moveToAgent agentId s name = some s') :
    ∃ entries', Moved agentId tree (names ++ [name]) entries' s' := by
  unfold moveToAgent moveDown at hmove
  rw [h.agents.mkdirAll] at hmove
  simp only [Option.bind_eq_bind, Option.bind_some, (h.agents.remove hname).changeAt] at hmove
  obtain ⟨node, hnode, hmove⟩ := Option.bind_eq_some_iff.mp hmove
  -- the name is still in the root, so it has not moved yet
  rw [h.rest name hname] at hnode
  have hnot : name ∉ names := by
    intro hmem
    rw [if_pos hmem] at hnode
    cases hnode
  rw [if_neg hnot] at hnode
  have hkey : name ∉ entries.map Prod.fst := by rwa [h.keys]
  have hnew : renameOnto node name entries = some (entries ++ [(name, node)]) := by
    unfold renameOnto
    rw [lookup_eq_none_of_notMem hkey, put_of_notMem hkey]
  rw [hnew] at hmove
  cases hmove
  refine ⟨entries ++ [(name, node)], agentEntries_withEntries, fun other hother => ?_, ?_, ?_,
    fun other hother => ?_⟩
  · rw [lookup_withEntries hother]
    by_cases heq : other = name
    · subst heq
      rw [lookup_remove_self, if_pos (List.mem_append_right _ (List.mem_singleton_self other))]
    · rw [lookup_remove_of_ne heq, h.rest other hother]
      have hiff : other ∈ names ++ [name] ↔ other ∈ names := by simp [heq]
      simp only [hiff]
  · rw [List.map_append, h.keys, List.map_singleton]
  · exact List.nodup_append'.mpr ⟨h.nodup, List.nodup_singleton name,
      List.disjoint_singleton.mpr hnot⟩
  · rw [List.lookup_append]
    rcases List.mem_append.mp hother with hmem | hmem
    · obtain ⟨node', hentry, htree⟩ := h.found other hmem
      exact ⟨node', by rw [hentry, Option.some_or], htree⟩
    · obtain rfl := List.mem_singleton.mp hmem
      exact ⟨node, by simp [lookup_eq_none_of_notMem hkey], hnode⟩

theorem Moved.moves {more : List String} {entries : Tree} (h : Moved agentId tree names entries s)
    (hmore : "agents" ∉ more) (hmoves : more.foldlM (moveToAgent agentId) s = some s') :
    ∃ entries', Moved agentId tree (names ++ more) entries' s' := by
  induction more generalizing names entries s with
  | nil =>
    cases hmoves
    exact ⟨entries, by rwa [List.append_nil]⟩
  | cons name more ih =>
    rw [List.mem_cons, not_or] at hmore
    obtain ⟨s₁, hmove, hmoves⟩ := Option.bind_eq_some_iff.mp hmoves
    obtain ⟨entries₁, h₁⟩ := h.move (Ne.symm hmore.1) hmove
    obtain ⟨entries', h'⟩ := ih h₁ hmore.2 hmoves
    rw [List.append_assoc] at h'
    exact ⟨entries', h'⟩

end

/-! ### The fleet that a promotion leaves -/

/-- The names that a promotion writes. -/
def fleetNames : List String := ["agents", "package.json", "fleet.yaml", "PROMOTED.md"]

theorem ne_of_not_fleetName {name : String} (h : name ∉ fleetNames) :
    name ≠ "agents" ∧ name ≠ "package.json" ∧ name ≠ "fleet.yaml" ∧ name ≠ "PROMOTED.md" := by
  simpa [fleetNames] using h

theorem not_fleetName_of_planned {tree : Tree} {name : String} (h : name ∈ plannedMoves tree) :
    name ∉ fleetNames := by
  unfold plannedMoves at h
  rcases List.mem_append.mp h with h | h
  · have hown : ∀ name ∈ perAgentFiles ++ perAgentDirs, name ∉ fleetNames := by decide
    refine hown name ?_
    rcases List.mem_append.mp h with h | h
    · exact List.mem_append_left _ (List.mem_of_mem_filter h)
    · exact List.mem_append_right _ (List.mem_of_mem_filter h)
  · obtain ⟨entry, hentry, rfl⟩ := List.mem_map.mp h
    have hnote := (List.mem_filter.mp hentry).2
    have hother : ∀ name ∈ fleetNames, ".md".toList.isSuffixOf name.toList = true →
        name = "PROMOTED.md" := by decide
    simp only [isAgentNote, Bool.and_eq_true, decide_eq_true_eq] at hnote
    exact fun hmem => hnote.2 (hother _ hmem hnote.1.2)

def savedBytes (bytes : Utf8.Bytes) (text : String) : Utf8.Bytes :=
  if text = textOf bytes then bytes else Utf8.encode text.toList

/-- The entry that a moved one becomes. -/
def Edited (agentId name : String) (node node' : TreeNode) : Prop :=
  match rewriting agentId name with
  | none => node' = node
  | some rewrite => ∃ bytes text, node = .file bytes ∧ rewrite (textOf bytes) = .ok text ∧
      node' = .file (savedBytes bytes text)

section
variable {agentId : String} {s s' : Tree}

/-- **One rewriting.** -/
theorem rewriteMoved_spec {entries : Tree} (h : AgentEntries agentId entries s) {name : String}
    {rewrite : String → Except PromoteFailure String}
    (hrewrite : rewriteMoved agentId name rewrite s = .ok s') :
    ∃ entries', AgentEntries agentId entries' s' ∧
      (∀ other, other ≠ "agents" → s'.lookup other = s.lookup other) ∧
      entries'.map Prod.fst = entries.map Prod.fst ∧
      (∀ other, other ≠ name → entries'.lookup other = entries.lookup other) ∧
      ∀ node, entries.lookup name = some node → ∃ bytes text, node = .file bytes ∧
        rewrite (textOf bytes) = .ok text ∧
        entries'.lookup name = some (.file (savedBytes bytes text)) := by
  unfold rewriteMoved at hrewrite
  rw [h.entriesAt, Option.bind_some] at hrewrite
  cases hname : entries.lookup name with
  | none =>
    rw [hname] at hrewrite
    cases hrewrite
    exact ⟨entries, h, fun _ _ => rfl, rfl, fun _ _ => rfl, nofun⟩
  | some node =>
    rw [hname] at hrewrite
    cases node with
    | dir _ => cases hrewrite
    | file bytes =>
      dsimp only at hrewrite
      cases htext : rewrite (textOf bytes) with
      | error failure =>
        rw [htext] at hrewrite
        cases hrewrite
      | ok text =>
        rw [htext] at hrewrite
        change (if text ≠ textOf bytes then
          orThrow (changeAt (writeFile name text) ["agents", agentId] s)
          else .ok s) = .ok s' at hrewrite
        by_cases hsame : text = textOf bytes
        · rw [if_neg (not_not_intro hsame)] at hrewrite
          cases hrewrite
          refine ⟨entries, h, fun _ _ => rfl, rfl, fun _ _ => rfl, fun node hnode => ?_⟩
          cases hnode
          exact ⟨bytes, text, rfl, htext, by rw [savedBytes, if_pos hsame, hname]⟩
        · have hfile : isDir entries name = false := by simp [isDir, hname, TreeNode.isFile]
          rw [if_pos hsame, h.changeAt, writeFile, hfile] at hrewrite
          cases hrewrite
          refine ⟨put name (.file (Utf8.encode text.toList)) entries,
            agentEntries_withEntries, fun other hother => lookup_withEntries hother, ?_,
            fun other hother => lookup_put_of_ne hother _ _, fun node hnode => ?_⟩
          · have hmem : name ∈ entries.map Prod.fst := by
              by_contra hnot
              rw [lookup_eq_none_of_notMem hnot] at hname
              cases hname
            rw [put_keys, if_pos hmem]
          · cases hnode
            refine ⟨bytes, text, rfl, htext, ?_⟩
            rw [lookup_put_self, savedBytes, if_neg hsame]

end

theorem ok_of_bind {α β : Type} {x : Except PromoteFailure α} {f : α → Except PromoteFailure β}
    {b : β} (h : x >>= f = .ok b) : ∃ a, x = .ok a ∧ f a = .ok b := by
  cases x with
  | error failure => cases h
  | ok a => exact ⟨a, rfl, h⟩

theorem some_of_orThrow {α : Type} {x : Option α} {a : α} (h : orThrow x = .ok a) :
    x = some a := by
  cases x with
  | none => cases h
  | some b =>
    cases h
    rfl

/-- The tree after a promotion, with the entries of the agent. -/
structure PromotedTree (H : PromoteHost) (plan : PromotePlan) (tree u entries : Tree) :
    Prop where
  agents : AgentEntries plan.agentId entries u
  keys : entries.map Prod.fst = plan.moves
  nodup : plan.moves.Nodup
  edited : ∀ name ∈ plan.moves, ∃ node node', tree.lookup name = some node ∧
    Edited plan.agentId name node node' ∧ entries.lookup name = some node'
  rest : ∀ name, name ∉ fleetNames →
    u.lookup name = if name ∈ plan.moves then none else tree.lookup name
  package : ∃ pkg, H.promotedPackage plan = .ok pkg ∧
    u.lookup "package.json" = some (.file (Utf8.encode (packageText pkg).toList))
  manifest : u.lookup "fleet.yaml" =
    some (.file (Utf8.encode (renderFleetOfOneManifest plan.agentId).toList))
  note : ∃ bytes, u.lookup "PROMOTED.md" = some (.file bytes)

/-- **The fleet that a promotion leaves**, where there was no `agents`. -/
theorem promotedTree_of_apply {H : PromoteHost} {plan : PromotePlan} {tree u : Tree}
    (hagents : tree.lookup "agents" = none) (hmoves : ∀ name ∈ plan.moves, name ∉ fleetNames)
    (happly : H.applyPromotePlan plan tree = .ok u) :
    ∃ entries, PromotedTree H plan tree u entries := by
  unfold PromoteHost.applyPromotePlan at happly
  obtain ⟨s₀, hmade, happly⟩ := ok_of_bind happly
  obtain ⟨s₁, hmoved, happly⟩ := ok_of_bind happly
  obtain ⟨s₂, hagent, happly⟩ := ok_of_bind happly
  obtain ⟨s₃, hcapabilities, happly⟩ := ok_of_bind happly
  obtain ⟨pkg, hpkg, happly⟩ := ok_of_bind happly
  obtain ⟨s₄, hpackage, happly⟩ := ok_of_bind happly
  obtain ⟨s₅, hmanifest, hnote⟩ := ok_of_bind happly
  have hs₀ := some_of_orThrow hmade
  rw [mkdirAll_new hagents] at hs₀
  cases hs₀
  have hstart : Moved plan.agentId tree [] [] (withEntries plan.agentId tree []) :=
    ⟨agentEntries_withEntries, fun _ h => lookup_withEntries h, rfl, List.nodup_nil, nofun⟩
  obtain ⟨e₁, h₁⟩ := hstart.moves (fun hmem => hmoves _ hmem (by decide)) (some_of_orThrow hmoved)
  rw [List.nil_append] at h₁
  obtain ⟨e₂, hagents₂, hrest₂, hkeys₂, hsame₂, hname₂⟩ := rewriteMoved_spec h₁.agents hagent
  obtain ⟨e₃, hagents₃, hrest₃, hkeys₃, hsame₃, hname₃⟩ :=
    rewriteMoved_spec hagents₂ hcapabilities
  have hs₄ := put_of_writeFile (some_of_orThrow hpackage)
  have hs₅ := put_of_writeFile (some_of_orThrow hmanifest)
  have hu := put_of_writeFile (some_of_orThrow hnote)
  subst hs₄ hs₅ hu
  refine ⟨e₃, ?_, hkeys₃.trans (hkeys₂.trans h₁.keys), h₁.nodup, fun name hname => ?_,
    fun name hname => ?_, ⟨pkg, hpkg, ?_⟩, ?_, ⟨_, lookup_put_self ..⟩⟩
  · unfold AgentEntries
    rw [lookup_put_of_ne (by decide), lookup_put_of_ne (by decide), lookup_put_of_ne (by decide)]
    exact hagents₃
  · obtain ⟨node, hentry, hnode⟩ := h₁.found name hname
    refine ⟨node, ?_⟩
    unfold Edited rewriting
    by_cases hyaml : name = "agent.yaml"
    · subst hyaml
      obtain ⟨bytes, text, hbytes, htext, hsaved⟩ := hname₂ node hentry
      exact ⟨_, hnode, ⟨bytes, text, hbytes, htext, rfl⟩, (hsame₃ _ (by decide)).trans hsaved⟩
    · rw [if_neg hyaml]
      rw [← hsame₂ name hyaml] at hentry
      by_cases hcap : name = "capabilities.yaml"
      · subst hcap
        obtain ⟨bytes, text, hbytes, htext, hsaved⟩ := hname₃ node hentry
        exact ⟨_, hnode, ⟨bytes, text, hbytes, htext, rfl⟩, hsaved⟩
      · rw [if_neg hcap]
        exact ⟨node, hnode, rfl, (hsame₃ name hcap).trans hentry⟩
  · obtain ⟨hagents', hpackage', hfleet, hpromoted⟩ := ne_of_not_fleetName hname
    rw [lookup_put_of_ne hpromoted, lookup_put_of_ne hfleet, lookup_put_of_ne hpackage',
      hrest₃ name hagents', hrest₂ name hagents', h₁.rest name hagents']
  · rw [lookup_put_of_ne (by decide), lookup_put_of_ne (by decide), lookup_put_self]
  · rw [lookup_put_of_ne (by decide), lookup_put_self]

/-! ### What a demotion makes of it -/

theorem readText_encode {name text : String} {tree : Tree}
    (h : tree.lookup name = some (.file (Utf8.encode text.toList))) :
    readText name tree = .ok text := by
  unfold readText
  rw [h]
  exact congrArg _ (textOf_encode text)

section
variable {H : PromoteHost} {agentId : String} {s : Tree}

theorem moveToRoot_free {entries : Tree} (h : AgentEntries agentId entries s) {name : String}
    {node : TreeNode} (hname : name ≠ "agents") (hfree : s.lookup name = none)
    (hnode : entries.lookup name = some node) :
    H.moveToRoot agentId s name =
      .ok (put name node (withEntries agentId s (remove name entries))) := by
  have hexists : existsIn s name = false := by simp [existsIn, hfree]
  have honto : renameOnto node name (withEntries agentId s (remove name entries)) =
      some (put name node (withEntries agentId s (remove name entries))) := by
    unfold renameOnto
    rw [lookup_withEntries hname, hfree]
  unfold PromoteHost.moveToRoot moveUp
  rw [hexists, if_neg Bool.false_ne_true, h.entriesAt, h.changeAt]
  simp only [Option.bind_eq_bind, Option.bind_some, hnode, Option.map_some, honto]
  rfl

/-- **The moves back.** -/
theorem movesToRoot (H : PromoteHost) {names : List String} {entries : Tree}
    (h : AgentEntries agentId entries s) (hnodup : names.Nodup) (hagents : "agents" ∉ names)
    (hfree : ∀ name ∈ names, s.lookup name = none ∧ ∃ node, entries.lookup name = some node) :
    ∃ s', names.foldlM (H.moveToRoot agentId) s = .ok s' ∧ ∀ name, name ≠ "agents" →
      s'.lookup name = if name ∈ names then entries.lookup name else s.lookup name := by
  induction names generalizing s entries with
  | nil => exact ⟨s, rfl, fun _ _ => rfl⟩
  | cons name names ih =>
    obtain ⟨hnot, hnodup⟩ := List.nodup_cons.mp hnodup
    rw [List.mem_cons, not_or] at hagents
    obtain ⟨⟨hempty, node, hnode⟩, hfree⟩ := List.forall_mem_cons.mp hfree
    have hne : ∀ other ∈ names, other ≠ name := fun other hother he => hnot (he ▸ hother)
    have h' : AgentEntries agentId (remove name entries)
        (put name node (withEntries agentId s (remove name entries))) := by
      unfold AgentEntries
      rw [lookup_put_of_ne hagents.1]
      exact agentEntries_withEntries
    obtain ⟨s', hmoves, hs'⟩ := ih h' hnodup hagents.2 fun other hother => by
      have hother' : other ≠ "agents" := fun he => hagents.2 (he ▸ hother)
      rw [lookup_put_of_ne (hne other hother), lookup_withEntries hother',
        lookup_remove_of_ne (hne other hother)]
      exact hfree other hother
    refine ⟨s', ?_, fun other hother => ?_⟩
    · rw [List.foldlM_cons, moveToRoot_free h (Ne.symm hagents.1) hempty hnode]
      exact hmoves
    · rw [hs' other hother]
      by_cases heq : other = name
      · subst heq
        rw [if_neg hnot, if_pos List.mem_cons_self, lookup_put_self, hnode]
      · rw [lookup_remove_of_ne heq, lookup_put_of_ne heq, lookup_withEntries hother]
        simp [heq]

end

section
variable {H : PromoteHost} {plan : PromotePlan} {tree u entries : Tree} {id : Option String}

theorem PromotedTree.readText_manifest (h : PromotedTree H plan tree u entries) :
    readText "fleet.yaml" u = .ok (renderFleetOfOneManifest plan.agentId) :=
  readText_encode h.manifest

/-- A demotion succeeds only where the id is read as it is written. -/
theorem PromotedTree.readsBack_of_demote (h : PromotedTree H plan tree u entries)
    (hid : id = none ∨ id = some plan.agentId) {restored : Tree}
    (hdemote : H.applyDemote id u = .ok restored) :
    H.soleAgentId (renderFleetOfOneManifest plan.agentId) = .ok plan.agentId := by
  have hexists : existsIn u "fleet.yaml" = true := by simp [existsIn, h.manifest]
  unfold PromoteHost.applyDemote at hdemote
  rw [hexists, if_neg (by decide), h.readText_manifest] at hdemote
  obtain ⟨_, hmanifest, hdemote⟩ := ok_of_bind hdemote
  cases hmanifest
  obtain ⟨onlyId, honly, hdemote⟩ := ok_of_bind hdemote
  rw [honly]
  refine congrArg _ ?_
  dsimp only at hdemote
  split at hdemote
  · cases hdemote
  · rename_i hexpected
    split at hdemote
    · cases hdemote
    · rcases hid with rfl | rfl
      · by_contra hne
        rw [Option.getD_none, h.agents.entriesAt_other hne] at hdemote
        cases hdemote
      · exact (not_not.mp hexpected).symm

theorem ok_bind {α β : Type} (a : α) (f : α → Except PromoteFailure β) : (.ok a >>= f) = f a := rfl

/-- **The demotion of a promoted fleet**, up to its `package.json`. -/
theorem PromotedTree.demote (h : PromotedTree H plan tree u entries)
    (hmoves : ∀ name ∈ plan.moves, name ∉ fleetNames) (hvalid : isAgentId plan.agentId = true)
    (hread : H.soleAgentId (renderFleetOfOneManifest plan.agentId) = .ok plan.agentId)
    (hid : id = none ∨ id = some plan.agentId) :
    ∃ s, H.applyDemote id u = H.stripWorkspaces s ∧
      s.lookup "package.json" = u.lookup "package.json" ∧
      (∀ name ∈ plan.moves, s.lookup name = entries.lookup name) ∧
      (∀ name ∈ fleetNames, name ≠ "package.json" → s.lookup name = none) ∧
      ∀ name, name ∉ fleetNames → name ∉ plan.moves → s.lookup name = tree.lookup name := by
  have hexists : existsIn u "fleet.yaml" = true := by simp [existsIn, h.manifest]
  have hexpected : id.getD plan.agentId = plan.agentId := by rcases hid with rfl | rfl <;> rfl
  have hfree : ∀ name ∈ plan.moves, u.lookup name = none ∧
      ∃ node, entries.lookup name = some node := fun name hname => by
    obtain ⟨_, node', -, -, hentry⟩ := h.edited name hname
    exact ⟨by rw [h.rest name (hmoves name hname), if_pos hname], node', hentry⟩
  have hroot : ∀ name ∈ fleetNames, name ∉ plan.moves := fun name hname hmem =>
    hmoves name hmem hname
  obtain ⟨s, hs, hlookup⟩ := movesToRoot H h.agents h.nodup (hroot _ (by decide)) hfree
  have hmanifest : (remove "agents" s).lookup "fleet.yaml" = u.lookup "fleet.yaml" := by
    rw [lookup_remove_of_ne (by decide), hlookup _ (by decide), if_neg (hroot _ (by decide))]
  obtain ⟨note, hnote⟩ := h.note
  have hnote' : (remove "fleet.yaml" (remove "agents" s)).lookup "PROMOTED.md" =
      some (.file note) := by
    rw [lookup_remove_of_ne (by decide), lookup_remove_of_ne (by decide), hlookup _ (by decide),
      if_neg (hroot _ (by decide)), hnote]
  refine ⟨remove "PROMOTED.md" (remove "fleet.yaml" (remove "agents" s)), ?_, ?_,
    fun name hname => ?_, fun name hname hpackage => ?_, fun name hname hnot => ?_⟩
  · unfold PromoteHost.applyDemote
    rw [hexists, if_neg (by decide), h.readText_manifest, ok_bind, hread, ok_bind]
    dsimp only
    rw [hexpected, if_neg (not_not_intro rfl), hvalid, if_neg (by decide), h.agents.entriesAt]
    dsimp only
    rw [h.keys, PromoteHost.moveBack, hs, ok_bind,
      removeFile_of_file (hmanifest.trans h.manifest), orThrow, ok_bind,
      removeFile_of_file hnote', orThrow, ok_bind]
  · rw [lookup_remove_of_ne (by decide), lookup_remove_of_ne (by decide),
      lookup_remove_of_ne (by decide), hlookup _ (by decide), if_neg (hroot _ (by decide))]
  · obtain ⟨hagents, -, hfleet, hpromoted⟩ := ne_of_not_fleetName (hmoves name hname)
    rw [lookup_remove_of_ne hpromoted, lookup_remove_of_ne hfleet, lookup_remove_of_ne hagents,
      hlookup name hagents, if_pos hname]
  · simp only [fleetNames, List.mem_cons, List.not_mem_nil, or_false] at hname
    rcases hname with rfl | rfl | rfl | rfl
    · rw [lookup_remove_of_ne (by decide), lookup_remove_of_ne (by decide), lookup_remove_self]
    · exact absurd rfl hpackage
    · rw [lookup_remove_of_ne (by decide), lookup_remove_self]
    · rw [lookup_remove_self]
  · obtain ⟨hagents, -, hfleet, hpromoted⟩ := ne_of_not_fleetName hname
    rw [lookup_remove_of_ne hpromoted, lookup_remove_of_ne hfleet, lookup_remove_of_ne hagents,
      hlookup name hagents, if_neg hnot, h.rest name hname, if_neg hnot]

end

/-! ### The strict inverse -/

section
variable {H : PromoteHost} {plan : PromotePlan} {tree u : Tree} {id : Option String}

theorem readText_eq_ok {name text : String} (h : readText name tree = .ok text) :
    ∃ bytes, tree.lookup name = some (.file bytes) ∧ text = textOf bytes := by
  unfold readText at h
  split at h
  · rename_i bytes hfile
    cases h
    exact ⟨bytes, hfile, rfl⟩
  · cases h

/-- What a plan is made from. -/
theorem buildPromotePlan_spec (h : H.buildPromotePlan id tree = .ok plan) :
    plan.moves = plannedMoves tree ∧ isAgentId plan.agentId = true ∧
      tree.lookup "fleet.yaml" = none ∧
      (tree.lookup "package.json" = none ∧ plan.existing = none ∨
        ∃ bytes, tree.lookup "package.json" = some (.file bytes) ∧
          plan.existing = some (textOf bytes)) := by
  unfold PromoteHost.buildPromotePlan at h
  split at h
  · cases h
  rename_i hfleet
  split at h
  · cases h
  obtain ⟨yamlText, -, h⟩ := ok_of_bind h
  obtain ⟨sourceName, -, h⟩ := ok_of_bind h
  dsimp only at h
  split at h
  · cases h
  rename_i hvalid
  have hfleet := lookup_eq_none_of_existsIn (Bool.eq_false_iff.mpr hfleet)
  have hvalid : isAgentId (id.getD sourceName) = true := by simpa using hvalid
  split at h
  · cases hread : readText "package.json" tree with
    | error failure =>
      rw [hread] at h
      cases h
    | ok text =>
      obtain ⟨bytes, hbytes, rfl⟩ := readText_eq_ok hread
      rw [hread] at h
      cases h
      exact ⟨rfl, hvalid, hfleet, .inr ⟨bytes, hbytes, rfl⟩⟩
  · rename_i hnone
    cases h
    exact ⟨rfl, hvalid, hfleet,
      .inl ⟨lookup_eq_none_of_existsIn (Bool.eq_false_iff.mpr hnone), rfl⟩⟩

theorem stripWorkspaces_of_lookup_ne {s s' : Tree} (h : H.stripWorkspaces s = .ok s')
    {name : String} (hname : name ≠ "package.json") : s'.lookup name = s.lookup name := by
  unfold PromoteHost.stripWorkspaces at h
  split at h
  · obtain ⟨text, -, h⟩ := ok_of_bind h
    obtain ⟨pkg, -, h⟩ := ok_of_bind h
    rw [put_of_writeFile (some_of_orThrow h), lookup_put_of_ne hname]
  · cases h
    rfl

/-- The `package.json` of a demotion, where a promotion has written it. -/
theorem stripWorkspaces_of_promoted {s : Tree} {pkg : List (String × JsValue)}
    (hlisted : Listed pkg)
    (h : s.lookup "package.json" = some (.file (Utf8.encode (packageText pkg).toList))) :
    ∃ s', H.stripWorkspaces s = .ok s' ∧
      s'.lookup "package.json" = some (.file (Utf8.encode (packageText (withoutWorkspaces
        (receivedProperties H.format.toNumberFormat pkg))).toList)) := by
  have hexists : existsIn s "package.json" = true := by simp [existsIn, h]
  have hdir : isDir s "package.json" = false := by simp [isDir, h, TreeNode.isFile]
  have hread : readText "package.json" s = .ok (packageText pkg) := readText_encode h
  have hparse : H.parsePackageJson (packageText pkg) =
      .ok (receivedProperties H.format.toNumberFormat pkg) := by
    unfold PromoteHost.parsePackageJson
    rw [jsonParse_packageText, received_properties hlisted]
  unfold PromoteHost.stripWorkspaces
  rw [if_pos hexists, hread, ok_bind, hparse, ok_bind, writeFile, hdir,
    if_neg Bool.false_ne_true]
  exact ⟨_, rfl, lookup_put_self ..⟩

/-- A demotion leaves no `agents` and no `PROMOTED.md`. -/
theorem lookup_of_demote {restored : Tree} (h : H.applyDemote id u = .ok restored) :
    restored.lookup "agents" = none ∧ restored.lookup "PROMOTED.md" = none := by
  unfold PromoteHost.applyDemote at h
  split at h
  · cases h
  obtain ⟨_, -, h⟩ := ok_of_bind h
  obtain ⟨onlyId, -, h⟩ := ok_of_bind h
  dsimp only at h
  split at h
  · cases h
  split at h
  · cases h
  split at h
  · cases h
  obtain ⟨s₁, -, h⟩ := ok_of_bind h
  obtain ⟨s₂, hfleet, h⟩ := ok_of_bind h
  obtain ⟨s₃, hnote, h⟩ := ok_of_bind h
  have hs₂ := remove_of_removeFile (some_of_orThrow hfleet)
  have hs₃ := remove_of_removeFile (some_of_orThrow hnote)
  subst hs₂ hs₃
  rw [stripWorkspaces_of_lookup_ne h (by decide), stripWorkspaces_of_lookup_ne h (by decide),
    lookup_remove_of_ne (by decide), lookup_remove_of_ne (by decide)]
  exact ⟨lookup_remove_self .., lookup_remove_self ..⟩

theorem savedBytes_eq_iff {bytes : Utf8.Bytes} {text : String} :
    savedBytes bytes text = bytes ↔ text = textOf bytes := by
  unfold savedBytes
  split
  · rename_i h
    exact iff_of_true rfl h
  · rename_i h
    refine iff_of_false (fun hbytes => h ?_) h
    rw [← hbytes, textOf_encode]

/-- A moved entry that comes back as it was is named right already, and conversely. -/
theorem Edited.eq_iff {agentId name : String} {node node' : TreeNode}
    (h : Edited agentId name node node') :
    node' = node ↔ ∀ rewrite bytes, rewriting agentId name = some rewrite → node = .file bytes →
      rewrite (textOf bytes) = .ok (textOf bytes) := by
  unfold Edited at h
  cases hrewriting : rewriting agentId name with
  | none =>
    rw [hrewriting] at h
    exact iff_of_true h nofun
  | some rewrite =>
    rw [hrewriting] at h
    obtain ⟨bytes, text, rfl, htext, rfl⟩ := h
    rw [TreeNode.file.injEq, savedBytes_eq_iff]
    constructor
    · rintro rfl _ _ ⟨⟩ ⟨⟩
      exact htext
    · intro hnamed
      have hsame := hnamed rewrite bytes rfl rfl
      rw [htext] at hsame
      exact Except.ok.inj hsame

end

section
variable {H : PromoteHost} {plan : PromotePlan} {tree u : Tree} {id given : Option String}

theorem rewriting_mem {agentId name : String} {rewrite : String → Except PromoteFailure String}
    (h : rewriting agentId name = some rewrite) : name ∈ perAgentFiles := by
  unfold rewriting at h
  split at h
  · rename_i hname
    subst hname
    decide
  · split at h
    · rename_i hname
      subst hname
      decide
    · cases h

theorem planned_of_rewriting {agentId name : String} {node : TreeNode}
    {rewrite : String → Except PromoteFailure String} (h : rewriting agentId name = some rewrite)
    (hname : tree.lookup name = some node) : name ∈ plannedMoves tree := by
  unfold plannedMoves
  refine List.mem_append_left _ (List.mem_append_left _ (List.mem_filter.mpr ⟨rewriting_mem h, ?_⟩))
  simp [existsIn, hname]

theorem fileAt_agents {agentId : String} {entries : Tree} (h : AgentEntries agentId entries u)
    (path : List String) : fileAt ("agents" :: agentId :: path) u = fileAt path entries := by
  unfold AgentEntries at h
  simp [fileAt, h]

/-- A moved entry of a reversible directory stays as it is. -/
theorem PromotedTree.lookup_moved {entries : Tree} (h : PromotedTree H plan tree u entries)
    (hrev : Reversible H plan.agentId tree) {name : String} (hname : name ∈ plan.moves) :
    entries.lookup name = tree.lookup name := by
  obtain ⟨node, node', hnode, hedited, hentry⟩ := h.edited name hname
  have hsame : node' = node := hedited.eq_iff.mpr fun rewrite bytes hrewrite hbytes =>
    hrev.named name rewrite bytes hrewrite (hbytes ▸ hnode)
  rw [hentry, hnode, hsame]

/-- **A reversible promotion loses nothing.** -/
theorem PromotedTree.nothingLost {entries : Tree} (h : PromotedTree H plan tree u entries)
    (hrev : Reversible H plan.agentId tree) (hfleet : tree.lookup "fleet.yaml" = none) :
    NothingLost plan.agentId tree u := by
  intro path bytes hfile hother
  cases path with
  | nil => cases hfile
  | cons name path =>
    by_cases hmoved : name ∈ plan.moves
    · right
      rw [fileAt_agents h.agents, fileAt_congr (h.lookup_moved hrev hmoved)]
      exact hfile
    · left
      by_cases hroot : name ∈ fleetNames
      · simp only [fleetNames, List.mem_cons, List.not_mem_nil, or_false] at hroot
        rcases hroot with rfl | rfl | rfl | rfl
        · rw [fileAt_eq_none hrev.agents] at hfile
          cases hfile
        · -- `package.json` itself is edited, and there is nothing below it
          obtain ⟨_, _, hpackage, -⟩ := hrev.package
          rw [fileAt, hpackage] at hfile
          dsimp only at hfile
          split at hfile
          · rename_i hpath
            subst hpath
            exact absurd rfl (hother "package.json" (by decide))
          · cases hfile
        · rw [fileAt_eq_none hfleet] at hfile
          cases hfile
        · rw [fileAt_eq_none hrev.note] at hfile
          cases hfile
      · have hrest := h.rest name hroot
        rw [if_neg hmoved] at hrest
        rw [fileAt_congr hrest]
        exact hfile

/-- The `package.json` that comes back, where there was one. -/
theorem sameJson_back_iff {bytes : Utf8.Bytes} {pkg : List (String × JsValue)}
    (F : RoundingFormat)
    (hpkg : jsonParse F.toNumberFormat (textOf bytes) = some (.obj pkg)) :
    SameJson F.toNumberFormat (some (.file bytes)) (some (.file (Utf8.encode (packageText
      (withoutWorkspaces
        (receivedProperties F.toNumberFormat (withWorkspaces pkg)))).toList))) ↔
      pkg.lookup "workspaces" = none ∧ isNullish ((JsValue.obj pkg).get "private") = false ∧
        received F.toNumberFormat (.obj pkg) = .obj pkg := by
  obtain ⟨j, -, hj⟩ := Option.map_eq_some_iff.mp hpkg
  have hproper : (JsValue.obj pkg).Proper F.toNumberFormat := hj ▸ evaluate_proper F j
  rw [← package_back_iff hproper, SameJson, hpkg, textOf_encode, jsonParse_packageText,
    Option.some.injEq, eq_comm]

theorem parsePackageJson_eq_ok {text : String} {pkg : List (String × JsValue)}
    (h : H.parsePackageJson text = .ok pkg) :
    jsonParse H.format.toNumberFormat text = some (.obj pkg) := by
  unfold PromoteHost.parsePackageJson at h
  split at h
  · cases h
  · rename_i hparse
    cases h
    exact hparse
  · cases h

/-- The `package.json` of a promoted fleet. -/
theorem PromotedTree.packageJson {entries : Tree} (h : PromotedTree H plan tree u entries)
    (hexisting : tree.lookup "package.json" = none ∧ plan.existing = none ∨
      ∃ bytes, tree.lookup "package.json" = some (.file bytes) ∧
        plan.existing = some (textOf bytes)) :
    ∃ pkg, Listed pkg ∧
      u.lookup "package.json" = some (.file (Utf8.encode (packageText pkg).toList)) ∧
      (tree.lookup "package.json" = none ∨ ∃ bytes before,
        tree.lookup "package.json" = some (.file bytes) ∧
        jsonParse H.format.toNumberFormat (textOf bytes) = some (.obj before) ∧
        pkg = withWorkspaces before) := by
  obtain ⟨pkg, hpkg, hwritten⟩ := h.package
  unfold PromoteHost.promotedPackage at hpkg
  rcases hexisting with ⟨hnone, hexisting⟩ | ⟨bytes, hbytes, hexisting⟩
  · rw [hexisting] at hpkg
    cases hpkg
    exact ⟨_, listed_minimalPackage _, hwritten, .inl hnone⟩
  · rw [hexisting] at hpkg
    dsimp only at hpkg
    cases hparse : H.parsePackageJson (textOf bytes) with
    | error failure =>
      rw [hparse] at hpkg
      cases hpkg
    | ok before =>
      rw [hparse] at hpkg
      cases hpkg
      have hbefore := parsePackageJson_eq_ok hparse
      obtain ⟨j, -, hj⟩ := Option.map_eq_some_iff.mp hbefore
      have hproper : (JsValue.obj before).Proper H.format.toNumberFormat :=
        hj ▸ evaluate_proper H.format j
      exact ⟨_, (proper_withWorkspaces hproper).2, hwritten,
        .inr ⟨bytes, before, hbytes, hbefore, rfl⟩⟩

/-- **Strict inverse.**  After a promotion of a directory, exactly the reversible ones have lost
nothing and come back as they were. -/
theorem strictInverse_iff {H : PromoteHost} {id given : Option String} {plan : PromotePlan}
    {tree promoted : Tree} (hplan : H.buildPromotePlan id tree = .ok plan)
    (happly : H.applyPromotePlan plan tree = .ok promoted)
    (hgiven : given = none ∨ given = some plan.agentId) :
    StrictInverse H plan.agentId given tree promoted ↔ Reversible H plan.agentId tree := by
  obtain ⟨hplanned, hvalid, hfleet, hexisting⟩ := buildPromotePlan_spec hplan
  have hmoves : ∀ name ∈ plan.moves, name ∉ fleetNames := fun name hname =>
    not_fleetName_of_planned (hplanned ▸ hname)
  constructor
  · rintro ⟨-, restored, hdemote, hlookup, hjson⟩
    obtain ⟨hagents, hnote⟩ := lookup_of_demote hdemote
    rw [hlookup _ (by decide)] at hagents hnote
    obtain ⟨entries, h⟩ := promotedTree_of_apply hagents hmoves happly
    have hread := h.readsBack_of_demote hgiven hdemote
    obtain ⟨s, hs, hpackage, hmoved, -, -⟩ := h.demote hmoves hvalid hread hgiven
    rw [hs] at hdemote
    obtain ⟨pkg, hlisted, hwritten, hbefore⟩ := h.packageJson hexisting
    obtain ⟨s', hstrip, hback⟩ := stripWorkspaces_of_promoted hlisted (hpackage.trans hwritten)
    rw [hstrip] at hdemote
    cases hdemote
    refine ⟨hagents, hnote, hread, fun name rewrite bytes hrewrite hbytes => ?_, ?_⟩
    · have hname : name ∈ plan.moves := hplanned ▸ planned_of_rewriting hrewrite hbytes
      obtain ⟨node, node', hnode, hedited, hentry⟩ := h.edited name hname
      have hne := (ne_of_not_fleetName (hmoves name hname)).2.1
      have hsame : node' = node := by
        have hcame := hlookup name hne
        rw [stripWorkspaces_of_lookup_ne hstrip hne, hmoved name hname, hentry, hnode] at hcame
        exact Option.some.inj hcame
      rw [hbytes] at hnode
      cases hnode
      exact hedited.eq_iff.mp hsame rewrite bytes hrewrite rfl
    · rw [hback] at hjson
      rcases hbefore with hnone | ⟨bytes, before, hbytes, hparse, rfl⟩
      · rw [hnone] at hjson
        cases hjson
      · rw [hbytes, sameJson_back_iff _ hparse] at hjson
        exact ⟨bytes, before, hbytes, hparse, hjson⟩
  · intro hrev
    obtain ⟨entries, h⟩ := promotedTree_of_apply hrev.agents hmoves happly
    refine ⟨h.nothingLost hrev hfleet, ?_⟩
    obtain ⟨s, hs, hpackage, hmoved, hgone, hrest⟩ := h.demote hmoves hvalid hrev.readsBack hgiven
    obtain ⟨pkg, hlisted, hwritten, hbefore⟩ := h.packageJson hexisting
    obtain ⟨s', hstrip, hback⟩ := stripWorkspaces_of_promoted hlisted (hpackage.trans hwritten)
    refine ⟨s', hs.trans hstrip, fun name hname => ?_, ?_⟩
    · rw [stripWorkspaces_of_lookup_ne hstrip hname]
      by_cases hroot : name ∈ fleetNames
      · rw [hgone name hroot hname]
        simp only [fleetNames, List.mem_cons, List.not_mem_nil, or_false] at hroot
        rcases hroot with rfl | rfl | rfl | rfl
        · exact hrev.agents.symm
        · exact absurd rfl hname
        · exact hfleet.symm
        · exact hrev.note.symm
      · by_cases hmem : name ∈ plan.moves
        · rw [hmoved name hmem, h.lookup_moved hrev hmem]
        · exact hrest name hroot hmem
    · obtain ⟨bytes, before, hbytes, hparse, hkept⟩ := hrev.package
      rcases hbefore with hnone | ⟨bytes', before', hbytes', hparse', rfl⟩
      · rw [hbytes] at hnone
        cases hnone
      · obtain rfl : bytes = bytes' := by simpa using hbytes.symm.trans hbytes'
        obtain rfl : before = before' := by simpa using hparse.symm.trans hparse'
        rw [hback, hbytes, sameJson_back_iff _ hparse]
        exact hkept

end

/-- Numbers of every length. -/
def exactNumbers : RoundingFormat where
  IsNumber _ := True
  read := some
  read_number := reads_itself
  isNumber_ofInt _ _ := trivial
  isNumber_read _ _ _ := trivial

/-- A host that reads the YAML of an agent `bot`. -/
def botHost : PromoteHost where
  parseYaml text :=
    if text = "name: bot\n" then some (.obj [("name", .str "bot")])
    else if text = renderFleetOfOneManifest "bot" then
      some (.obj [("agents", .arr [.obj [("id", .str "bot"), ("path", .str "./agents/bot")]])])
    else none
  format := exactNumbers
  path names := "/".intercalate ("/srv/bot" :: names)
  today := "2026-01-01"

/-- The agent, and one more file. -/
def botTree (name : String) (bytes : Utf8.Bytes) : Tree :=
  [("agent.yaml", .file (Utf8.encode "name: bot\n".toList)), (name, .file bytes)]

theorem botHost_name : botHost.readNameField "name: bot\n" = .ok "bot" := rfl

theorem botHost_readsBack :
    botHost.soleAgentId (renderFleetOfOneManifest "bot") = .ok "bot" := by
  have hne : renderFleetOfOneManifest "bot" ≠ "name: bot\n" := by decide
  have hparse : botHost.parseYaml (renderFleetOfOneManifest "bot") = some (.obj
      [("agents", .arr [.obj [("id", .str "bot"), ("path", .str "./agents/bot")]])]) := by
    dsimp only [botHost]
    rw [if_neg hne, if_pos rfl]
  have hid : jsText (orElse (.str "") (.str "bot")) = "bot" := by
    change jsText (.str "bot") = "bot"
    rw [jsText]
  unfold PromoteHost.soleAgentId
  rw [hparse]
  exact congrArg _ hid

/-- The tree after the move. -/
def botMoved (name : String) (bytes : Utf8.Bytes) : Tree :=
  [(name, .file bytes),
    ("agents", .dir [("bot", .dir [("agent.yaml",
      .file (Utf8.encode "name: bot\n".toList))])])]

theorem botMoved_rewritten {name : String} (hname : name ≠ "agents") (bytes : Utf8.Bytes) :
    rewriteMoved "bot" "agent.yaml" (rewriteAgentYamlName "bot") (botMoved name bytes) =
        .ok (botMoved name bytes) ∧
      rewriteMoved "bot" "capabilities.yaml"
        (fun yamlText => .ok (rewriteCapabilitiesAgent "bot" yamlText)) (botMoved name bytes) =
          .ok (botMoved name bytes) := by
  have hentries : AgentEntries "bot" [("agent.yaml", .file (Utf8.encode "name: bot\n".toList))]
      (botMoved name bytes) := by
    simp [AgentEntries, botMoved, List.lookup_cons, beq_eq_false_iff_ne.mpr (Ne.symm hname)]
  have hsame : rewriteAgentYamlName "bot" "name: bot\n" = .ok "name: bot\n" := rfl
  have hagent : List.lookup "agent.yaml"
      [("agent.yaml", TreeNode.file (Utf8.encode "name: bot\n".toList))] =
        some (.file (Utf8.encode "name: bot\n".toList)) := rfl
  unfold rewriteMoved
  rw [hentries.entriesAt, Option.bind_some, Option.bind_some, hagent]
  dsimp only
  rw [textOf_encode, hsame, ok_bind, if_neg (not_not_intro rfl)]
  exact ⟨rfl, rfl⟩

/-- What the promotion of the agent does after the moves. -/
theorem botTree_apply {name : String} {bytes : Utf8.Bytes} {existing : Option String}
    {pkg : List (String × JsValue)} (hname : name ≠ "agents")
    (hmove : (mkdirAll ["agents", "bot"] (botTree name bytes)).bind
      (["agent.yaml"].foldlM (moveToAgent "bot")) = some (botMoved name bytes))
    (hpkg : botHost.promotedPackage ⟨"bot", ["agent.yaml"], existing⟩ = .ok pkg) :
    botHost.applyPromotePlan ⟨"bot", ["agent.yaml"], existing⟩ (botTree name bytes) = (do
      let tree ← orThrow (writeFile "package.json" (packageText pkg) (botMoved name bytes))
      let tree ← orThrow (writeFile "fleet.yaml" (renderFleetOfOneManifest "bot") tree)
      let note := renderPromotedNote "bot" "/srv/bot" "2026-01-01"
      orThrow (writeFile "PROMOTED.md" note tree)) := by
  obtain ⟨s, hs, hmove⟩ := Option.bind_eq_some_iff.mp hmove
  obtain ⟨hagent, hcapabilities⟩ := botMoved_rewritten hname bytes
  unfold PromoteHost.applyPromotePlan
  dsimp only
  rw [hs, orThrow, ok_bind, hmove, orThrow, ok_bind, hagent, ok_bind, hcapabilities, ok_bind, hpkg,
    ok_bind]
  rfl

/-- What the plan of the agent is made from. -/
theorem botTree_plan {name : String} {bytes : Utf8.Bytes} {existing : Option String}
    (hfleet : existsIn (botTree name bytes) "fleet.yaml" = false)
    (hmoves : plannedMoves (botTree name bytes) = ["agent.yaml"])
    (hexisting : (if existsIn (botTree name bytes) "package.json" then
      some <$> readText "package.json" (botTree name bytes) else .ok none) = .ok existing) :
    botHost.buildPromotePlan none (botTree name bytes) =
      .ok ⟨"bot", ["agent.yaml"], existing⟩ := by
  have hyaml : readText "agent.yaml" (botTree name bytes) = .ok "name: bot\n" :=
    readText_encode rfl
  have hagent : (!existsIn (botTree name bytes) "agent.yaml") = false := rfl
  have hvalid : (!isAgentId "bot") = false := rfl
  unfold PromoteHost.buildPromotePlan
  rw [hfleet, hagent, if_neg Bool.false_ne_true, if_neg Bool.false_ne_true, hyaml, ok_bind,
    botHost_name, ok_bind]
  dsimp only [Option.getD_none]
  rw [hvalid, if_neg Bool.false_ne_true, hmoves]
  split at hexisting
  · rename_i hpackage
    rw [if_pos hpackage, hexisting]
    rfl
  · rename_i hpackage
    cases hexisting
    rw [if_neg hpackage]
    rfl

/-- The `package.json` of a private package, written compactly. -/
def privatePackage : String := stringify (.obj [("private", .bool true)])

theorem parse_privatePackage :
    jsonParse exactNumbers.toNumberFormat privatePackage =
      some (.obj [("private", .bool true)]) := by
  rw [privatePackage, jsonParse_stringify]
  rfl

/-- The agent with that `package.json`. -/
def privateBot : Tree := botTree "package.json" (Utf8.encode privatePackage.toList)

theorem reversible_privateBot : Reversible botHost "bot" privateBot where
  agents := rfl
  note := rfl
  readsBack := botHost_readsBack
  named name rewrite bytes hrewrite hbytes := by
    by_cases hyaml : name = "agent.yaml"
    · subst hyaml
      cases hrewrite
      cases hbytes
      rw [textOf_encode]
      rfl
    · have hmem := planned_of_rewriting hrewrite hbytes
      have hmoves : plannedMoves privateBot = ["agent.yaml"] := rfl
      rw [hmoves] at hmem
      exact absurd (List.mem_singleton.mp hmem) hyaml
  package := ⟨_, _, rfl, by rw [textOf_encode]; exact parse_privatePackage, rfl, rfl, rfl⟩

/-- The private agent comes back as it was. -/
theorem strictInverse_privateBot :
    ∃ promoted, StrictInverse botHost "bot" none privateBot promoted := by
  have hread : readText "package.json" privateBot = .ok privatePackage := readText_encode rfl
  have hparse : botHost.parsePackageJson privatePackage = .ok [("private", .bool true)] := by
    unfold PromoteHost.parsePackageJson
    rw [show botHost.format = exactNumbers from rfl, parse_privatePackage]
  have hexisting : (if existsIn privateBot "package.json" then
      some <$> readText "package.json" privateBot else .ok none) = .ok (some privatePackage) := by
    rw [if_pos (by decide), hread]
    rfl
  have hpkg : botHost.promotedPackage ⟨"bot", ["agent.yaml"], some privatePackage⟩ =
      .ok (withWorkspaces [("private", .bool true)]) := by
    unfold PromoteHost.promotedPackage
    dsimp only
    rw [hparse]
    rfl
  exact ⟨_, (strictInverse_iff (botTree_plan rfl rfl hexisting)
    ((botTree_apply (by decide) rfl hpkg).trans rfl) (.inl rfl)).mpr reversible_privateBot⟩

/-- The note of the directory is replaced by that of the fleet. -/
theorem not_strict_inverse :
    ¬ ∀ (H : PromoteHost) (id given : Option String) (plan : PromotePlan) (tree promoted : Tree),
      H.buildPromotePlan id tree = .ok plan → H.applyPromotePlan plan tree = .ok promoted →
      (given = none ∨ given = some plan.agentId) →
        StrictInverse H plan.agentId given tree promoted := by
  intro h
  have hplan : botHost.buildPromotePlan none (botTree "PROMOTED.md" []) =
      .ok ⟨"bot", ["agent.yaml"], none⟩ := botTree_plan rfl rfl rfl
  have hpkg : botHost.promotedPackage ⟨"bot", ["agent.yaml"], none⟩ =
      .ok (minimalPackage "bot") := rfl
  have happly := (botTree_apply (by decide) (show _ = some (botMoved "PROMOTED.md" []) from rfl)
    hpkg).trans rfl
  obtain ⟨-, restored, hdemote, hlookup, -⟩ := h _ none none _ _ _ hplan happly (.inl rfl)
  have hnote := (lookup_of_demote hdemote).2
  rw [hlookup _ (by decide)] at hnote
  cases hnote

end Declaragent.Fleet
