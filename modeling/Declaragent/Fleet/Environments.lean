import Declaragent.Library.Ancestry
import Declaragent.Library.JsValue

/-!
# Fleet — the environments of a manifest

An environment takes over what the one it inherits from has.  `flattenEnvironment` follows the links
and merges on the way back; what it has merged it keeps.

* `flattenEnvironment_result`: the environment at the end of a line, or a stray one.
* `resolveEnvironments_eq`: which tables resolve, and to what.
-/

namespace Declaragent.Fleet
open Ancestry JsonText
open Relation (TransGen)

structure FleetEnvironmentOverride where
  secretScopes : Option (List String)
  envFiles : Option (List String)
  deriving DecidableEq

structure FleetEnvironment where
  inherit : Option String := none
  tenantsRef : Option String := none
  peersRef : Option String := none
  secretsRef : Option String := none
  channelsRef : Option String := none
  envFiles : Option (List String) := none
  overrides : Option (List (String × FleetEnvironmentOverride)) := none
  deriving DecidableEq

/-- `environments`: the properties of an object, in the order of `Object.keys`. -/
structure Environments where
  entries : List (String × FleetEnvironment)
  /-- The keys of an object are distinct, in the table and in the overrides of each environment. -/
  nodup : (entries.map Prod.fst).Nodup
  overrides_nodup : ∀ p ∈ entries, ∀ os, p.2.overrides = some os → (os.map Prod.fst).Nodup

/-- An environment after its `inherit` chain has been flattened. -/
structure LoadedEnvironment where
  id : String
  tenantsRef : Option String := none
  peersRef : Option String := none
  secretsRef : Option String := none
  channelsRef : Option String := none
  envFiles : List String
  overrides : List (String × FleetEnvironmentOverride)
  /-- The oldest first. -/
  inheritChain : List String
  deriving DecidableEq

def DEFAULT_FLEET_ENVIRONMENT_ID : String := "default"

/-- What the loader uses of `node:path`. -/
structure NodePath where
  isAbsolute : String → Bool
  resolve : String → String → String

section
variable (P : NodePath) (root : String)

def resolveUnderRoot (p : String) : String := if P.isAbsolute p then p else P.resolve root p

/-- The environment of a declaration, over the parent's. -/
def mergeEnvironment (id : String) (raw : FleetEnvironment) (parent : Option LoadedEnvironment) :
    LoadedEnvironment where
  id := id
  tenantsRef := (raw.tenantsRef.map (resolveUnderRoot P root)).or (parent.bind (·.tenantsRef))
  peersRef := (raw.peersRef.map (resolveUnderRoot P root)).or (parent.bind (·.peersRef))
  secretsRef := (raw.secretsRef.map (resolveUnderRoot P root)).or (parent.bind (·.secretsRef))
  channelsRef := (raw.channelsRef.map (resolveUnderRoot P root)).or (parent.bind (·.channelsRef))
  envFiles :=
    ((raw.envFiles.map fun ps => ps.map (resolveUnderRoot P root)).or
      (parent.map (·.envFiles))).getD []
  overrides :=
    (raw.overrides.getD []).foldl (fun overrides entry => put entry.1 entry.2 overrides)
      ((parent.map (·.overrides)).getD [])
  inheritChain := ((parent.map (·.inheritChain)).getD []) ++ [id]

end

/-- `if (raw.inherit)`: an empty text is no name. -/
def FleetEnvironment.parent (raw : FleetEnvironment) : Option String :=
  raw.inherit.filter (· ≠ "")

namespace Environments

def ids (declared : Environments) : List String := declared.entries.map Prod.fst

def get (declared : Environments) (id : String) : Option FleetEnvironment :=
  declared.entries.lookup id

def parent (declared : Environments) (id : String) : Option String :=
  (declared.get id).bind (·.parent)

/-- The declared environments that are not being visited. -/
def unvisited (declared : Environments) (visiting : List String) : List String :=
  declared.ids.filter (· ∉ visiting)

end Environments

/-- `resolved`: a `Map` in its order. -/
abbrev Resolved := List (String × LoadedEnvironment)

theorem length_unvisited_lt {declared : Environments} {visiting : List String} {id : String}
    (hid : id ∈ declared.ids) (hnew : id ∉ visiting) :
    (declared.unvisited (visiting ++ [id])).length < (declared.unvisited visiting).length := by
  have hfilter : declared.unvisited (visiting ++ [id]) =
      (declared.unvisited visiting).filter (· ≠ id) := by
    unfold Environments.unvisited
    rw [List.filter_filter]
    refine List.filter_congr fun other _ => ?_
    rw [Bool.eq_iff_iff]
    simp [and_comm]
  rw [hfilter]
  refine List.length_filter_lt_length_iff_exists.mpr ⟨id, ?_, by simp⟩
  exact List.mem_filter.mpr ⟨hid, by simpa using hnew⟩

theorem mem_ids_of_get {declared : Environments} {id : String} {raw : FleetEnvironment}
    (h : declared.get id = some raw) : id ∈ declared.ids :=
  List.mem_map.mpr ⟨(id, raw), (lookup_eq_some_iff_mem declared.nodup).mp h, rfl⟩

section
variable (P : NodePath) (root : String) (declared : Environments)

def flattenEnvironment (id : String) (resolved : Resolved) (visiting : List String) :
    Except String (LoadedEnvironment × Resolved) :=
  match resolved.lookup id with
  | some cached => .ok (cached, resolved)
  | none =>
    if _hvisiting : id ∈ visiting then
      let chain := " → ".intercalate (visiting ++ [id])
      .error s!"environment \"{id}\" has a circular inherit chain: {chain}"
    else match _hraw : declared.get id with
      | none => .error s!"unknown environment \"{id}\""
      | some raw =>
        match raw.parent with
        | none =>
          let loaded := mergeEnvironment P root id raw none
          .ok (loaded, put id loaded resolved)
        | some parentId =>
          if parentId ∉ declared.ids then
            .error s!"environment \"{id}\" inherits from unknown environment \"{parentId}\""
          else do
            let (parent, resolved) ←
              flattenEnvironment parentId resolved (visiting ++ [id])
            let loaded := mergeEnvironment P root id raw (some parent)
            .ok (loaded, put id loaded resolved)
termination_by (declared.unvisited visiting).length
decreasing_by
  exact length_unvisited_lt (mem_ids_of_get _hraw) _hvisiting

def resolveFrom : List String → Resolved → Except String Resolved
  | [], resolved => .ok resolved
  | id :: ids, resolved =>
    if (resolved.lookup id).isSome then resolveFrom ids resolved
    else do
      let (_, resolved) ← flattenEnvironment P root declared id resolved []
      resolveFrom ids resolved

/-- What a manifest without environments has. -/
def implicitEnvironment : LoadedEnvironment where
  id := DEFAULT_FLEET_ENVIRONMENT_ID
  envFiles := []
  overrides := []
  inheritChain := [DEFAULT_FLEET_ENVIRONMENT_ID]

/-- The environments of a manifest, which may have no `environments`. -/
def resolveEnvironments : Option Environments → Except String Resolved
  | none => .ok [(DEFAULT_FLEET_ENVIRONMENT_ID, implicitEnvironment)]
  | some declared =>
    if declared.ids = [] then .ok [(DEFAULT_FLEET_ENVIRONMENT_ID, implicitEnvironment)]
    else resolveFrom P root declared declared.ids []

end

/-! ### The end of a line -/

variable {P : NodePath} {root : String} {declared : Environments} {id : String}
  {resolved : Resolved} {visiting : List String}

theorem exists_get {declared : Environments} {id : String} (h : id ∈ declared.ids) :
    ∃ raw, declared.get id = some raw := by
  obtain ⟨⟨_, raw⟩, hmem, rfl⟩ := List.mem_map.mp h
  exact ⟨raw, (lookup_eq_some_iff_mem declared.nodup).mpr hmem⟩

section
variable (declared : Environments)

def Declared (id : String) : Prop := id ∈ declared.ids

/-- The environment inherits, directly or through others, from itself or from an undeclared one. -/
abbrev IsStray (id : String) : Prop := Stray declared.parent (Declared declared) id

/-- The line of an environment: the links it follows, the nearest first. -/
abbrev InheritLine (id : String) (line : List String) : Prop :=
  Line declared.parent (Declared declared) id line

variable (P : NodePath) (root : String)

/-- The declarations of a line, merged from the oldest on. -/
def lineEnvironment : List String → Option LoadedEnvironment
  | [] => none
  | id :: ids =>
    (declared.get id).map fun raw => mergeEnvironment P root id raw (lineEnvironment ids)

/-- What is resolved is declared, and is the environment of its line. -/
def Flattened (resolved : Resolved) : Prop :=
  ∀ id env, resolved.lookup id = some env →
    id ∈ declared.ids ∧
      ∃ line, InheritLine declared id line ∧ lineEnvironment declared P root line = some env

/-- What is resolved stays resolved. -/
def Keeps (resolved resolved' : Resolved) : Prop :=
  ∀ id, (resolved.lookup id).isSome → (resolved'.lookup id).isSome

/-- How a call ends: an environment is stray, or the one asked for is resolved. -/
def FlattenResult (id : String) (resolved : Resolved) :
    Except String (LoadedEnvironment × Resolved) → Prop
  | .error _ => ∃ bad ∈ declared.ids, IsStray declared bad
  | .ok (env, resolved') =>
    Flattened declared P root resolved' ∧ resolved'.lookup id = some env ∧
      Keeps resolved resolved'

end

theorem Flattened.put {line : List String} {env : LoadedEnvironment}
    (h : Flattened declared P root resolved) (hid : id ∈ declared.ids)
    (hline : InheritLine declared id line)
    (henv : lineEnvironment declared P root line = some env) :
    Flattened declared P root (put id env resolved) := by
  intro other env' hlookup
  by_cases hother : other = id
  · subst hother
    rw [lookup_put_self] at hlookup
    exact ⟨hid, line, hline, henv.trans hlookup⟩
  · rw [lookup_put_of_ne hother] at hlookup
    exact h other env' hlookup

theorem keeps_put (id : String) (env : LoadedEnvironment) (resolved : Resolved) :
    Keeps resolved (put id env resolved) := by
  intro other hother
  by_cases heq : other = id
  · rw [heq, lookup_put_self]
    rfl
  · rwa [lookup_put_of_ne heq]

theorem parent_of_get {raw : FleetEnvironment} (h : declared.get id = some raw) :
    declared.parent id = raw.parent := by
  rw [Environments.parent, h, Option.bind_some]

variable (P root) in
theorem lineEnvironment_cons {raw : FleetEnvironment} (h : declared.get id = some raw)
    (ids : List String) : lineEnvironment declared P root (id :: ids) =
      some (mergeEnvironment P root id raw (lineEnvironment declared P root ids)) := by
  rw [lineEnvironment, h, Option.map_some]

theorem flattenEnvironment_result (h : Flattened declared P root resolved)
    (hid : id ∈ declared.ids)
    (hvisiting : ∀ v ∈ visiting, TransGen (Parent declared.parent) v id) :
    FlattenResult declared P root id resolved
      (flattenEnvironment P root declared id resolved visiting) := by
  fun_induction flattenEnvironment P root declared id resolved visiting with
  | case1 id visiting cached hcached => exact ⟨h, hcached, fun _ hk => hk⟩
  | case2 id visiting _ hcycle =>
    -- The visited environments are those that led here.
    exact ⟨id, hid, id, hvisiting id hcycle, .inl rfl⟩
  | case3 id visiting _ _ hraw =>
    obtain ⟨raw, hget⟩ := exists_get hid
    rw [hraw] at hget
    cases hget
  | case4 id visiting _ _ raw hraw hparent loaded =>
    have hline : InheritLine declared id [id] := .first ((parent_of_get hraw).trans hparent)
    exact ⟨h.put hid hline (lineEnvironment_cons P root hraw []), lookup_put_self ..,
      keeps_put id loaded resolved⟩
  | case5 id visiting _ _ raw hraw parentId hparent hunknown =>
    have habove : Parent declared.parent id parentId := (parent_of_get hraw).trans hparent
    exact ⟨id, hid, parentId, .single habove, .inr hunknown⟩
  | case6 id visiting _ _ raw hraw parentId hparent hknown ih =>
    have habove : Parent declared.parent id parentId := (parent_of_get hraw).trans hparent
    have hknown := not_not.mp hknown
    have hresult := ih hknown fun v hv => by
      rcases List.mem_append.mp hv with hv | hv
      · exact (hvisiting v hv).tail habove
      · rw [List.mem_singleton.mp hv]
        exact .single habove
    cases hcall : flattenEnvironment P root declared parentId resolved (visiting ++ [id]) with
    | error msg =>
      rw [hcall] at hresult
      exact hresult
    | ok result =>
      obtain ⟨parent, resolved'⟩ := result
      rw [hcall] at hresult
      obtain ⟨hflat, hlookup, hkeeps⟩ := hresult
      obtain ⟨-, line, hline, henv⟩ := hflat parentId parent hlookup
      have hmerged := lineEnvironment_cons P root hraw line
      rw [henv] at hmerged
      exact ⟨hflat.put hid (.after habove hknown hline) hmerged, lookup_put_self ..,
        fun k hk => keeps_put id _ resolved' k (hkeeps k hk)⟩

variable (declared P root) in
/-- How the loop over the declared environments ends. -/
def LoopResult (ids : List String) (resolved : Resolved) : Except String Resolved → Prop
  | .error _ => ∃ bad ∈ declared.ids, IsStray declared bad
  | .ok resolved' =>
    Flattened declared P root resolved' ∧ Keeps resolved resolved' ∧
      ∀ id ∈ ids, (resolved'.lookup id).isSome

theorem resolveFrom_result {ids : List String} (h : Flattened declared P root resolved)
    (hids : ∀ id ∈ ids, id ∈ declared.ids) :
    LoopResult P root declared ids resolved (resolveFrom P root declared ids resolved) := by
  induction ids generalizing resolved with
  | nil => exact ⟨h, fun _ hk => hk, fun _ hid => absurd hid List.not_mem_nil⟩
  | cons id ids ih =>
    have hrest : ∀ id ∈ ids, id ∈ declared.ids := fun id hid => hids id (.tail _ hid)
    -- Once the first is resolved, the loop goes on with the others.
    have hgo : ∀ resolved₁, Flattened declared P root resolved₁ → Keeps resolved resolved₁ →
        (resolved₁.lookup id).isSome →
        LoopResult P root declared (id :: ids) resolved
          (resolveFrom P root declared ids resolved₁) := by
      intro resolved₁ hflat hkeeps hid
      have hresult := ih hflat hrest
      cases hloop : resolveFrom P root declared ids resolved₁ with
      | error msg =>
        rw [hloop] at hresult
        exact hresult
      | ok resolved₂ =>
        rw [hloop] at hresult
        obtain ⟨hflat₂, hkeeps₂, hall⟩ := hresult
        refine ⟨hflat₂, fun k hk => hkeeps₂ k (hkeeps k hk), fun k hk => ?_⟩
        rcases List.mem_cons.mp hk with rfl | hk
        · exact hkeeps₂ k hid
        · exact hall k hk
    unfold resolveFrom
    split
    · rename_i hseen
      exact hgo resolved h (fun _ hk => hk) hseen
    · have hresult : FlattenResult declared P root id resolved
          (flattenEnvironment P root declared id resolved []) :=
        flattenEnvironment_result h (hids id (.head _)) fun _ hv => absurd hv List.not_mem_nil
      cases hcall : flattenEnvironment P root declared id resolved [] with
      | error msg =>
        rw [hcall] at hresult
        exact hresult
      | ok result =>
        obtain ⟨env, resolved₁⟩ := result
        rw [hcall] at hresult
        obtain ⟨hflat, hlookup, hkeeps⟩ := hresult
        exact hgo resolved₁ hflat hkeeps (by rw [hlookup]; rfl)

/-! ### The nearest declaration -/

section
variable (declared : Environments)

/-- What the nearest declaration of a line that has the field says. -/
def nearest {α : Type} (field : FleetEnvironment → Option α) (line : List String) : Option α :=
  line.findSome? fun id => (declared.get id).bind field

variable (P : NodePath) (root : String)

/-- The fold of the declarations along the chain that an environment names. -/
structure FoldsChain (id : String) (env : LoadedEnvironment) : Prop where
  name : env.id = id
  line : InheritLine declared id env.inheritChain.reverse
  tenantsRef : env.tenantsRef =
    (nearest declared (·.tenantsRef) env.inheritChain.reverse).map (resolveUnderRoot P root)
  peersRef : env.peersRef =
    (nearest declared (·.peersRef) env.inheritChain.reverse).map (resolveUnderRoot P root)
  secretsRef : env.secretsRef =
    (nearest declared (·.secretsRef) env.inheritChain.reverse).map (resolveUnderRoot P root)
  channelsRef : env.channelsRef =
    (nearest declared (·.channelsRef) env.inheritChain.reverse).map (resolveUnderRoot P root)
  envFiles : env.envFiles =
    ((nearest declared (·.envFiles) env.inheritChain.reverse).getD []).map
      (resolveUnderRoot P root)
  overrides : ∀ agentId, env.overrides.lookup agentId =
    nearest declared (fun raw => raw.overrides.bind (·.lookup agentId)) env.inheritChain.reverse

end

theorem nearest_cons {α : Type} {raw : FleetEnvironment} (h : declared.get id = some raw)
    (field : FleetEnvironment → Option α) (line : List String) :
    nearest declared field (id :: line) = (field raw).or (nearest declared field line) := by
  rw [nearest, List.findSome?_cons, h, Option.bind_some]
  cases field raw <;> rfl

theorem lookup_foldl_put {V : Type} {ps : List (String × V)} (h : (ps.map Prod.fst).Nodup)
    (base : List (String × V)) (key : String) :
    (ps.foldl (fun o p => put p.1 p.2 o) base).lookup key =
      (ps.lookup key).or (base.lookup key) := by
  induction ps generalizing base with
  | nil => rfl
  | cons p ps ih =>
    obtain ⟨k, v⟩ := p
    obtain ⟨hnot, hnodup⟩ := List.nodup_cons.mp h
    rw [List.foldl_cons, ih hnodup, List.lookup_cons]
    by_cases hkey : key = k
    · subst hkey
      have hnone : ps.lookup key = none := by
        rw [List.lookup_eq_none_iff]
        intro p hp
        refine bne_iff_ne.mpr ?_
        rintro rfl
        exact hnot (List.mem_map.mpr ⟨p, hp, rfl⟩)
      rw [hnone, lookup_put_self, beq_self_eq_true]
      rfl
    · rw [lookup_put_of_ne hkey, beq_eq_false_iff_ne.mpr hkey]

/-- An environment is merged from the oldest of its line on, one declaration after the other. -/
theorem lineEnvironment_induction {motive : List String → Option LoadedEnvironment → Prop}
    (nil : motive [] none)
    (cons : ∀ id raw line env, declared.get id = some raw → motive line env →
      motive (id :: line) (some (mergeEnvironment P root id raw env)))
    {line : List String} (h : ∀ id ∈ line, Declared declared id) :
    motive line (lineEnvironment declared P root line) := by
  induction line with
  | nil => exact nil
  | cons id line ih =>
    obtain ⟨raw, hraw⟩ := exists_get (h id (.head _))
    rw [lineEnvironment_cons P root hraw]
    exact cons id raw line _ hraw (ih fun id hid => h id (.tail _ hid))

section
variable (P root) {line : List String} (h : ∀ id ∈ line, Declared declared id)
include h

/-- A reference that is taken over from the parent where there is none. -/
theorem line_ref {raw : FleetEnvironment → Option String}
    {loaded : LoadedEnvironment → Option String}
    (hmerge : ∀ id decl parent, loaded (mergeEnvironment P root id decl parent) =
      ((raw decl).map (resolveUnderRoot P root)).or (parent.bind loaded)) :
    (lineEnvironment declared P root line).bind loaded =
      (nearest declared raw line).map (resolveUnderRoot P root) := by
  refine lineEnvironment_induction (motive := fun line env => env.bind loaded =
    (nearest declared raw line).map (resolveUnderRoot P root)) rfl ?_ h
  intro id decl line env hget ih
  rw [Option.bind_some, hmerge, ih, nearest_cons hget]
  cases raw decl <;> rfl

theorem line_envFiles : ((lineEnvironment declared P root line).map (·.envFiles)).getD [] =
    ((nearest declared (·.envFiles) line).getD []).map (resolveUnderRoot P root) := by
  refine lineEnvironment_induction (motive := fun line env => (env.map (·.envFiles)).getD [] =
    ((nearest declared (·.envFiles) line).getD []).map (resolveUnderRoot P root)) rfl ?_ h
  intro id raw line env hget ih
  rw [Option.map_some, Option.getD_some, nearest_cons hget, mergeEnvironment]
  cases raw.envFiles with
  | none => exact ih
  | some files => rfl

theorem line_overrides (agentId : String) :
    (((lineEnvironment declared P root line).map (·.overrides)).getD []).lookup agentId =
      nearest declared (fun raw => raw.overrides.bind (·.lookup agentId)) line := by
  refine lineEnvironment_induction (motive := fun line env =>
    ((env.map (·.overrides)).getD []).lookup agentId =
      nearest declared (fun raw => raw.overrides.bind (·.lookup agentId)) line) rfl ?_ h
  intro id raw line env hget ih
  rw [Option.map_some, Option.getD_some, nearest_cons hget, mergeEnvironment, ← ih]
  cases hoverrides : raw.overrides with
  | none => rfl
  | some os =>
    have hmem := (lookup_eq_some_iff_mem declared.nodup).mp hget
    exact lookup_foldl_put (declared.overrides_nodup _ hmem os hoverrides) _ agentId

theorem line_inheritChain :
    ((lineEnvironment declared P root line).map (·.inheritChain)).getD [] = line.reverse := by
  refine lineEnvironment_induction (motive := fun line env =>
    (env.map (·.inheritChain)).getD [] = line.reverse) rfl ?_ h
  intro id raw line env _ ih
  rw [List.reverse_cons, ← ih]
  rfl

end

theorem foldsChain_of_line {line : List String} {env : LoadedEnvironment}
    (hid : id ∈ declared.ids) (hline : InheritLine declared id line)
    (henv : lineEnvironment declared P root line = some env) :
    FoldsChain declared P root id env := by
  have hall := hline.known_of_mem hid
  have hchain : env.inheritChain.reverse = line := by
    have hreverse := line_inheritChain P root hall
    rw [henv, Option.map_some, Option.getD_some] at hreverse
    rw [hreverse, List.reverse_reverse]
  have hname : env.id = id := by
    cases line with
    | nil => cases henv
    | cons first rest =>
      obtain rfl := Option.some.inj hline.head
      obtain ⟨raw, hraw⟩ := exists_get hid
      rw [lineEnvironment_cons P root hraw] at henv
      rw [← Option.some.inj henv]
      rfl
  have href : ∀ {raw : FleetEnvironment → Option String}
      {loaded : LoadedEnvironment → Option String},
      (∀ id decl parent, loaded (mergeEnvironment P root id decl parent) =
        ((raw decl).map (resolveUnderRoot P root)).or (parent.bind loaded)) →
      loaded env = (nearest declared raw line).map (resolveUnderRoot P root) := by
    intro raw loaded hmerge
    have hfield := line_ref P root hall hmerge
    rwa [henv, Option.bind_some] at hfield
  have hfiles := line_envFiles P root hall
  have hoverrides := line_overrides P root hall
  rw [henv] at hfiles hoverrides
  refine ⟨hname, ?_, ?_, ?_, ?_, ?_, ?_, ?_⟩ <;> rw [hchain]
  · exact hline
  · exact href fun _ _ _ => rfl
  · exact href fun _ _ _ => rfl
  · exact href fun _ _ _ => rfl
  · exact href fun _ _ _ => rfl
  · exact hfiles
  · exact hoverrides

/-! ### A table of environments -/

/-- The environments there are once a table is resolved. -/
def loadedIds (declared : Environments) : List String :=
  if declared.ids = [] then [DEFAULT_FLEET_ENVIRONMENT_ID] else declared.ids

/-- Both fail, or both have the same environments under the same names. -/
def SameEnvironments : Except String Resolved → Except String Resolved → Prop
  | .error _, .error _ => True
  | .ok resolved, .ok resolved' => ∀ id, resolved.lookup id = resolved'.lookup id
  | _, _ => False

theorem implicit_foldsChain (h : declared.ids = []) :
    FoldsChain declared P root DEFAULT_FLEET_ENVIRONMENT_ID implicitEnvironment := by
  have hget : ∀ id, declared.get id = none := by
    intro id
    unfold Environments.get
    rw [List.map_eq_nil_iff.mp h]
    rfl
  have hnearest : ∀ {α : Type} (field : FleetEnvironment → Option α),
      nearest declared field implicitEnvironment.inheritChain.reverse = none := by
    intro α field
    simp [nearest, implicitEnvironment, hget]
  have hparent : declared.parent DEFAULT_FLEET_ENVIRONMENT_ID = none := by
    rw [Environments.parent, hget, Option.bind_none]
  refine ⟨rfl, .first hparent, ?_, ?_, ?_, ?_, ?_, ?_⟩ <;> simp only [hnearest] <;> intros <;> rfl

theorem resolve_of_empty (h : declared.ids = []) : resolveEnvironments P root (some declared) =
    .ok [(DEFAULT_FLEET_ENVIRONMENT_ID, implicitEnvironment)] := if_pos h

theorem resolve_of_declared (h : declared.ids ≠ []) : resolveEnvironments P root (some declared) =
    resolveFrom P root declared declared.ids [] := if_neg h

/-- The loop over a table ends with the environment of each line, or there is a stray one. -/
theorem loop_result (P : NodePath) (root : String) (declared : Environments) :
    LoopResult P root declared declared.ids [] (resolveFrom P root declared declared.ids []) :=
  resolveFrom_result (by intro id env h; cases h) fun _ hid => hid

/-- After the loop, the environments are those of the lines. -/
theorem lookup_iff_line (h : resolveFrom P root declared declared.ids [] = .ok resolved)
    {env : LoadedEnvironment} : resolved.lookup id = some env ↔ id ∈ declared.ids ∧
      ∃ line, InheritLine declared id line ∧ lineEnvironment declared P root line = some env := by
  have hresult := loop_result P root declared
  rw [h] at hresult
  obtain ⟨hflat, -, hall⟩ := hresult
  refine ⟨hflat id env, ?_⟩
  rintro ⟨hid, line, hline, henv⟩
  obtain ⟨env', hlookup⟩ := Option.isSome_iff_exists.mp (hall id hid)
  obtain ⟨-, line', hline', henv'⟩ := hflat id env' hlookup
  rw [hline.unique hline', henv'] at henv
  rw [hlookup, henv]

theorem fails_iff_stray (P : NodePath) (root : String) (declared : Environments) :
    (∃ msg, resolveFrom P root declared declared.ids [] = .error msg) ↔
      ∃ id ∈ declared.ids, IsStray declared id := by
  have hresult := loop_result P root declared
  cases hloop : resolveFrom P root declared declared.ids [] with
  | error msg =>
    rw [hloop] at hresult
    exact ⟨fun _ => hresult, fun _ => ⟨msg, rfl⟩⟩
  | ok resolved =>
    rw [hloop] at hresult
    obtain ⟨hflat, -, hall⟩ := hresult
    constructor
    · rintro ⟨_, hmsg⟩
      cases hmsg
    · rintro ⟨id, hid, hstray⟩
      obtain ⟨env, hlookup⟩ := Option.isSome_iff_exists.mp (hall id hid)
      obtain ⟨-, line, hline, -⟩ := hflat id env hlookup
      exact absurd hstray hline.not_stray

/-! ### The order of the declarations -/

section
variable {other : Environments} (h : declared.entries.Perm other.entries)
include h

theorem get_of_perm (id : String) : other.get id = declared.get id := by
  refine Option.ext fun raw => ?_
  unfold Environments.get
  rw [lookup_eq_some_iff_mem other.nodup, lookup_eq_some_iff_mem declared.nodup]
  exact h.mem_iff.symm

theorem ids_of_perm : declared.ids.Perm other.ids := h.map Prod.fst

theorem parent_of_perm (id : String) : other.parent id = declared.parent id := by
  rw [Environments.parent, get_of_perm h, Environments.parent]

theorem inheritLine_of_perm {line : List String} (hline : InheritLine declared id line) :
    InheritLine other id line :=
  hline.congr (parent_of_perm h) fun _ hid => (ids_of_perm h).mem_iff.mp hid

theorem lineEnvironment_of_perm (line : List String) :
    lineEnvironment other P root line = lineEnvironment declared P root line := by
  induction line with
  | nil => rfl
  | cons id line ih => rw [lineEnvironment, lineEnvironment, ih, get_of_perm h]

theorem isStray_of_perm : (∃ id ∈ declared.ids, IsStray declared id) ↔
    ∃ id ∈ other.ids, IsStray other id := by
  have hparent : other.parent = declared.parent := funext (parent_of_perm h)
  have hdeclared : Declared other = Declared declared :=
    funext fun id => propext (ids_of_perm h).mem_iff.symm
  simp only [IsStray, hparent, hdeclared, (ids_of_perm h).mem_iff]

theorem lookup_of_perm {resolved resolved' : Resolved}
    (hok : resolveFrom P root declared declared.ids [] = .ok resolved)
    (hok' : resolveFrom P root other other.ids [] = .ok resolved') (id : String) :
    resolved.lookup id = resolved'.lookup id := by
  have hlines : ∀ line, InheritLine declared id line ↔ InheritLine other id line := fun line =>
    ⟨inheritLine_of_perm h, inheritLine_of_perm h.symm⟩
  refine Option.ext fun env => ?_
  simp only [lookup_iff_line hok, lookup_iff_line hok', (ids_of_perm h).mem_iff, hlines,
    lineEnvironment_of_perm h]

theorem sameEnvironments_of_perm :
    SameEnvironments (resolveEnvironments P root (some declared))
      (resolveEnvironments P root (some other)) := by
  have hempty : declared.ids = [] ↔ other.ids = [] :=
    ⟨fun hnil => (hnil ▸ ids_of_perm h).nil_eq.symm, fun hnil => (hnil ▸ ids_of_perm h).eq_nil⟩
  have hfails := (fails_iff_stray P root declared).trans
    ((isStray_of_perm h).trans (fails_iff_stray P root other).symm)
  by_cases hnil : declared.ids = []
  · rw [resolve_of_empty hnil, resolve_of_empty (hempty.mp hnil)]
    exact fun _ => rfl
  · rw [resolve_of_declared hnil, resolve_of_declared (mt hempty.mpr hnil)]
    cases hloop : resolveFrom P root declared declared.ids [] with
    | error msg =>
      obtain ⟨msg', hloop'⟩ := hfails.mp ⟨msg, hloop⟩
      rw [hloop']
      trivial
    | ok resolved =>
      cases hloop' : resolveFrom P root other other.ids [] with
      | error msg' =>
        obtain ⟨msg, herror⟩ := hfails.mpr ⟨msg', hloop'⟩
        rw [hloop] at herror
        cases herror
      | ok resolved' => exact lookup_of_perm h hloop hloop'

end

theorem resolveEnvironments_eq (P : NodePath) (root : String) (declared : Environments) :
    ((∃ msg, resolveEnvironments P root (some declared) = .error msg) ↔
      ∃ id ∈ declared.ids, ∃ target, TransGen (Parent declared.parent) id target ∧
        (target = id ∨ target ∉ declared.ids)) ∧
    (∀ resolved, resolveEnvironments P root (some declared) = .ok resolved →
      (∀ id, (resolved.lookup id).isSome ↔ id ∈ loadedIds declared) ∧
      ∀ id env, resolved.lookup id = some env → FoldsChain declared P root id env) ∧
    ∀ other : Environments, declared.entries.Perm other.entries →
      SameEnvironments (resolveEnvironments P root (some declared))
        (resolveEnvironments P root (some other)) := by
  refine ⟨?_, ?_, fun other hperm => sameEnvironments_of_perm hperm⟩
  · by_cases hnil : declared.ids = []
    · rw [resolve_of_empty hnil]
      constructor
      · rintro ⟨_, hmsg⟩
        cases hmsg
      · rintro ⟨id, hid, -⟩
        rw [hnil] at hid
        exact absurd hid List.not_mem_nil
    · rw [resolve_of_declared hnil]
      exact fails_iff_stray P root declared
  · intro resolved hok
    unfold loadedIds
    by_cases hnil : declared.ids = []
    · rw [resolve_of_empty hnil] at hok
      obtain rfl := Except.ok.inj hok
      rw [if_pos hnil]
      refine ⟨fun id => ?_, fun id env hlookup => ?_⟩
      · rw [List.mem_singleton, List.lookup_cons]
        by_cases hid : id = DEFAULT_FLEET_ENVIRONMENT_ID <;> simp [hid, beq_eq_false_iff_ne.mpr]
      · obtain ⟨rfl, rfl⟩ : id = DEFAULT_FLEET_ENVIRONMENT_ID ∧ implicitEnvironment = env := by
          rw [List.lookup_cons] at hlookup
          split at hlookup
          · rename_i hbeq
            exact ⟨beq_iff_eq.mp hbeq, Option.some.inj hlookup⟩
          · cases hlookup
        exact implicit_foldsChain hnil
    · rw [resolve_of_declared hnil] at hok
      rw [if_neg hnil]
      have hresult := loop_result P root declared
      rw [hok] at hresult
      obtain ⟨hflat, -, hall⟩ := hresult
      refine ⟨fun id => ⟨fun hsome => ?_, hall id⟩, fun id env hlookup => ?_⟩
      · obtain ⟨env, hlookup⟩ := Option.isSome_iff_exists.mp hsome
        exact (hflat id env hlookup).1
      · obtain ⟨hid, line, hline, henv⟩ := hflat id env hlookup
        exact foldsChain_of_line hid hline henv

end Declaragent.Fleet
